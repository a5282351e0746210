import Aequora.Base.Bytes
import Aequora.Feed.Consumption

/-! Archived feed segments. The digest of a segment seals the identity, the number and the stored
payload digest of its events, and nothing else of them. -/

namespace Aequora.Feed

open Aequora.Base Aequora.Protocol

namespace ChangeFeedEvent

def «seal» (event : ChangeFeedEvent) : BitVec 128 × UInt64 × Vector UInt8 32 :=
  (event.eventId.uuid, UInt64.ofNat event.sequence, event.payloadDigest)

def unsealed (event : ChangeFeedEvent) : ChangeFeedEvent :=
  { event with eventId := ⟨0⟩, sequence := 0, payloadDigest := Vector.replicate 32 0 }

def sealBytes : BitVec 128 × UInt64 × Vector UInt8 32 → List UInt8
  | (eventId, sequence, payloadDigest) =>
    beBytes 16 eventId.toNat ++ (leBytes 8 sequence.toNat ++ payloadDigest.toList)

theorem sealBytes_inj (same : sealBytes first = sealBytes second) : first = second := by
  obtain ⟨eventId, sequence, _⟩ := first
  obtain ⟨otherId, otherSequence, _⟩ := second
  obtain ⟨ids, rest⟩ := List.append_inj same (by simp)
  obtain ⟨sequences, digests⟩ := List.append_inj rest (by simp)
  have named := beBytes_injective (show _ < byteCapacity 16 from eventId.isLt) otherId.isLt ids
  have numbered := leBytes_injective (show _ < byteCapacity 8 from sequence.toNat_lt) otherSequence.toNat_lt sequences
  rw [BitVec.eq_of_toNat_eq named, UInt64.toNat_inj.mp numbered, Vector.toList_inj.mp digests]

theorem eq_of_seal {first second : ChangeFeedEvent} (left : first.sequence ≤ u64Max) (right : second.sequence ≤ u64Max)
    (sealed : first.seal = second.seal) (rest : first.unsealed = second.unsealed) : first = second := by
  obtain ⟨ids, sequences, digests⟩ : _ ∧ _ ∧ _ := by simpa [«seal»] using sealed
  have numbers : first.sequence = second.sequence := by
    have same := congrArg UInt64.toNat sequences
    rwa [UInt64.toNat_ofNat_of_lt' (Nat.lt_succ_of_le left), UInt64.toNat_ofNat_of_lt' (Nat.lt_succ_of_le right)] at same
  calc first = { first.unsealed with
        eventId := ⟨first.eventId.uuid⟩, sequence := first.sequence, payloadDigest := first.payloadDigest } := rfl
    _ = second := by rw [rest, ids, numbers, digests]; rfl

end ChangeFeedEvent

structure FeedArchiveSegment (Digest : Type) where
  authorityEpoch : AuthorityEpoch
  (startSequence endSequence : Sequence)
  rootDigest : Digest
  (complete manifestDurable : Bool)

namespace FeedArchiveSegment
variable {Digest : Type} [DecidableEq Digest]

section
variable (blake3 : List UInt8 → Digest)

def digest (events : List ChangeFeedEvent) : Digest :=
  blake3 (textBytes "aequora.feed.archive.v1\x00" ++ (events.map ChangeFeedEvent.seal).flatMap ChangeFeedEvent.sealBytes)

def verify (segment : FeedArchiveSegment Digest) (events : List ChangeFeedEvent) :
    Except FeedError Unit :=
  require (¬(¬segment.complete ∨ ¬segment.manifestDurable ∨ segment.startSequence > segment.endSequence ∨
    events.head?.all (fun event => decide (event.sequence ≠ segment.startSequence)) ∨
    events.getLast?.all (fun event => decide (event.sequence ≠ segment.endSequence)) ∨
    digest blake3 events ≠ segment.rootDigest)) .archiveVerificationFailed

/-- Events that an archive accepts are the archived ones exactly when they agree with them in the
fields that the digest does not read. -/
theorem archive_binds_iff (segment : FeedArchiveSegment Digest)
    (events others : List ChangeFeedEvent) (injective : Function.Injective blake3)
    (fits : ∀ event ∈ events ++ others, event.sequence ≤ u64Max)
    (root : segment.rootDigest = digest blake3 events) (accepted : segment.verify blake3 others = .ok ()) :
    others.map ChangeFeedEvent.seal = events.map ChangeFeedEvent.seal ∧
      (others = events ↔ others.map ChangeFeedEvent.unsealed = events.map ChangeFeedEvent.unsealed) := by
  simp only [verify, require_eq_ok, not_or, ne_eq, not_not] at accepted
  obtain ⟨-, -, -, -, -, same⟩ := accepted
  have sealed : others.map ChangeFeedEvent.seal = events.map ChangeFeedEvent.seal :=
    rows_injective (show 0 < 56 by decide) (fun _ => by simp [ChangeFeedEvent.sealBytes])
      (fun _ _ => ChangeFeedEvent.sealBytes_inj) (List.append_cancel_left (injective (same.trans root)))
  refine ⟨sealed, congrArg _, fun rest => ?_⟩
  clear same root
  induction others generalizing events with
  | nil => simpa using sealed.symm
  | cons other _ ih =>
    cases events with
    | nil => simp at sealed
    | cons event events =>
      simp only [List.map_cons, List.cons.injEq] at sealed rest
      rw [ChangeFeedEvent.eq_of_seal (fits other (by simp)) (fits event (by simp)) sealed.1 rest.1,
        ih events (fun known listed => fits known (by simp at listed ⊢; tauto)) sealed.2 rest.2]

def exampleSegment : FeedArchiveSegment Digest where
  authorityEpoch := 1
  startSequence := 4
  endSequence := 4
  rootDigest := digest blake3 [exampleEvent 4 1]
  complete := true
  manifestDurable := true

end

def exampleAltered : ChangeFeedEvent := { exampleEvent 4 1 with tenantId := ⟨2⟩, payload := [1] }

theorem archive_binds_altered :
    [exampleAltered].map ChangeFeedEvent.seal = [exampleEvent 4 1].map ChangeFeedEvent.seal ∧
      ([exampleAltered] = [exampleEvent 4 1] ↔
        [exampleAltered].map ChangeFeedEvent.unsealed = [exampleEvent 4 1].map ChangeFeedEvent.unsealed) :=
  archive_binds_iff id (exampleSegment id) _ _ Function.injective_id (by decide) rfl (by decide)

theorem archive_accepts_altered : exampleAltered ≠ exampleEvent 4 1 ∧
      ∀ blake3 : List UInt8 → Vector UInt8 32, (exampleSegment blake3).verify blake3 [exampleAltered] = .ok () := by
  refine ⟨by decide, fun blake3 => ?_⟩
  simp [verify, exampleSegment, exampleAltered, exampleEvent, digest, ChangeFeedEvent.seal]

end FeedArchiveSegment

end Aequora.Feed
