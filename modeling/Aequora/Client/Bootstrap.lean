import Aequora.Client.Engine
import Aequora.Store.DependencyOrder

/-! The two ways a client takes over a snapshot: page by page on request, and from a stream that is
opened again where it broke off. -/

namespace Aequora.Client

open Std Aequora.Base Aequora.Protocol Aequora.Store

structure Delivery (Surroundings : Type) where
  page : BootstrapResponse
  around : Surroundings

/-- What the next page has to continue, and what this call has staged so far. -/
structure BootstrapProgress where
  snapshotId : Option SnapshotId
  offset : Nat
  cursor : Option Cursor
  (pages entities : Nat)

structure BootstrapOutcome where
  snapshotId : SnapshotId
  (pages entities : Nat)
  cursor : Cursor
deriving DecidableEq

/-- Begin where the store has stopped. -/
def BootstrapProgress.resume (progress : Option SnapshotProgress) : BootstrapProgress where
  snapshotId := progress.map SnapshotProgress.snapshotId
  offset := progress.elim 0 SnapshotProgress.nextOffset
  cursor := progress.map SnapshotProgress.cursor
  pages := 0
  entities := 0

section
variable (progress : BootstrapProgress) (page : BootstrapResponse)

def BootstrapProgress.extend : BootstrapProgress where
  snapshotId := some page.snapshotId
  offset := page.nextOffset
  cursor := some page.cursor
  pages := saturatingAdd progress.pages 1
  entities := saturatingAdd progress.entities page.entities.length

def BootstrapOutcome.of : BootstrapOutcome where
  snapshotId := page.snapshotId
  pages := progress.pages
  entities := progress.entities
  cursor := page.cursor

end

def retries (config : ClientConfig) (attempt : Nat) (error : TransportError) : Bool :=
  error.kind = .transient && attempt + 1 < max config.maxAttempts 1

/-- The page continues the snapshot of this session and keeps to the limits. -/
def validateSnapshotPage (config : ClientConfig) (progress : BootstrapProgress) (page : BootstrapResponse) :
    Except ClientError Unit := do
  require (page.protocol = config.protocol ∧ page.cursor.scope = config.session.scopeId ∧
    page.offset = progress.offset ∧ (∀ expected ∈ progress.snapshotId, expected = page.snapshotId) ∧
    (∀ expected ∈ progress.cursor, expected = page.cursor) ∧
    page.nextOffset = saturatingAdd page.offset page.entities.length) .snapshotMismatch
  let payloadBytes := page.entities.foldl (fun total entity => saturatingAdd total entity.payload.length) 0
  require (page.entities.length ≤ config.snapshotLimits.maxEntities ∧
    payloadBytes ≤ config.snapshotLimits.maxPayloadBytes) .responseLimits

/-- The page of a known authority is of that authority and of no earlier epoch. -/
def validateTrust (page : BootstrapResponse) : Option Cursor → Except ClientError Unit
  | none => .ok ()
  | some trusted =>
    if trusted.authorityId ≠ AuthorityId.legacyUnbound ∧ page.cursor.authorityId ≠ trusted.authorityId then
      .error .authorityIdChanged
    else if page.cursor.authorityEpoch < trusted.authorityEpoch then .error .authorityRollbackDetected
    else .ok ()

section Engine
variable (config : ClientConfig) (store : ClientStore State Surroundings)

/-- Check a page and stage it. -/
def acceptPage (progress : BootstrapProgress) (delivery : Delivery Surroundings) (state : State) :
    State × Except ClientError BootstrapProgress :=
  match validateSnapshotPage config progress delivery.page with
  | .error error => (state, .error error)
  | .ok () =>
    if delivery.page.hasMore = true ∧ delivery.page.entities = [] ∧
        delivery.page.nextOffset = delivery.page.offset then (state, .error .noProgress)
    else
      match store.stageSnapshotFenced delivery.around delivery.page state with
      | (next, .error error) => (next, .error (.store error))
      | (next, .ok ()) => (next, .ok (progress.extend delivery.page))

/-- Ask for page after page. The list is what the transport answers, one entry for each attempt; the
call has no result yet when it ends. -/
def bootstrapPages (trusted : Option Cursor) : (left attempt : Nat) → BootstrapProgress → State →
    List (Except TransportError (Delivery Surroundings)) → State × Option (Except ClientError BootstrapOutcome)
  | 0, _, _, state, _ => (state, some (.error .exchangeLimit))
  | _ + 1, _, _, state, [] => (state, none)
  | left + 1, attempt, progress, state, .error error :: rest =>
    if retries config attempt error then bootstrapPages trusted (left + 1) (attempt + 1) progress state rest
    else (state, some (.error (.transport error)))
  | left + 1, _, progress, state, .ok delivery :: rest =>
    match validateTrust delivery.page trusted with
    | .error error => (state, some (.error error))
    | .ok () =>
      match acceptPage config store progress delivery state with
      | (next, .error error) => (next, some (.error error))
      | (next, .ok extended) =>
        if delivery.page.hasMore then bootstrapPages trusted left 0 extended next rest
        else (next, some (.ok (.of extended delivery.page)))

/-- The call is admitted first: no other call is running, the client leads, the scheduler agrees. -/
def bootstrap (admission : Except ClientError Unit)
    (answers : List (Except TransportError (Delivery Surroundings))) (state : State) :
    State × Option (Except ClientError BootstrapOutcome) :=
  match admission with
  | .error error => (state, some (.error error))
  | .ok () =>
    bootstrapPages config store (store.loadCursor config.session.scopeId state) config.maxExchangesPerSync 0
      (.resume (store.snapshotProgress config.session.scopeId state)) state answers

inductive StreamEvent (Surroundings : Type) where
  | page (delivery : Delivery Surroundings)
  | ended
  | failed (error : TransportError)

inductive StreamEnd where
  | waiting
  | finished (result : Except ClientError BootstrapOutcome)
  | reopen (attempt : Nat) (progress : BootstrapProgress)

def readStream : (attempt : Nat) → BootstrapProgress → State → List (StreamEvent Surroundings) →
    State × StreamEnd
  | _, _, state, [] => (state, .waiting)
  | _, _, state, .ended :: _ => (state, .finished (.error .snapshotStreamEnded))
  | attempt, progress, state, .failed error :: _ =>
    if retries config attempt error then (state, .reopen (attempt + 1) progress)
    else (state, .finished (.error (.transport error)))
  | _, progress, state, .page delivery :: rest =>
    match acceptPage config store progress delivery state with
    | (next, .error error) => (next, .finished (.error error))
    | (next, .ok extended) =>
      if delivery.page.hasMore = false then (next, .finished (.ok (.of extended delivery.page)))
      else if config.maxExchangesPerSync ≤ extended.pages then (next, .finished (.error .exchangeLimit))
      else readStream 0 extended next rest

/-- Open stream after stream. The list is what the transport answers to each opening. -/
def bootstrapStreams : (attempt : Nat) → BootstrapProgress → State →
    List (Except TransportError (List (StreamEvent Surroundings))) →
    State × Option (Except ClientError BootstrapOutcome)
  | _, progress, state, [] =>
    (state, if progress.pages < config.maxExchangesPerSync then none else some (.error .exchangeLimit))
  | attempt, progress, state, opening :: rest =>
    if progress.pages < config.maxExchangesPerSync then
      match opening with
      | .error error =>
        if retries config attempt error then bootstrapStreams (attempt + 1) progress state rest
        else (state, some (.error (.transport error)))
      | .ok events =>
        match readStream config store attempt progress state events with
        | (next, .waiting) => (next, none)
        | (next, .finished result) => (next, some result)
        | (next, .reopen attempt progress) => bootstrapStreams attempt progress next rest
    else (state, some (.error .exchangeLimit))

/-- Unlike the call with requests, this one does not look at the cursor the store holds. -/
def bootstrapStreaming (admission : Except ClientError Unit)
    (openings : List (Except TransportError (List (StreamEvent Surroundings)))) (state : State) :
    State × Option (Except ClientError BootstrapOutcome) :=
  match admission with
  | .error error => (state, some (.error error))
  | .ok () =>
    bootstrapStreams config store 0 (.resume (store.snapshotProgress config.session.scopeId state)) state openings

end Engine

end Aequora.Client
