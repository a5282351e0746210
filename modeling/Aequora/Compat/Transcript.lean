import Aequora.Base.Bytes
import Aequora.Base.Concatenation

/-! The digest of a negotiation. Three sets of any size are hashed without their lengths, so
transcripts are told apart exactly when no two of them are different cuts of one sequence of bytes. -/

namespace Aequora.Compat

open Aequora.Base

structure SortedSet (Item : Type) [LT Item] where
  items : List Item
  sorted : items.Pairwise (· < ·)
deriving DecidableEq

structure NegotiationTranscript where
  offeredProtocols : SortedSet UInt16
  offeredCapabilities : SortedSet UInt32
  selectedProtocol : UInt16
  selectedCapabilities : SortedSet UInt32
  policyGeneration : UInt64
deriving DecidableEq

namespace NegotiationTranscript

def capabilityBytes (capabilities : SortedSet UInt32) : List UInt8 :=
  capabilities.items.flatMap fun capability => beBytes 4 capability.toNat

/-- What the hasher is given. -/
def parts (transcript : NegotiationTranscript) : List (List UInt8) :=
  [textBytes "aequora.compat.transcript.v1\x00",
    transcript.offeredProtocols.items.flatMap fun version => beBytes 2 version.toNat, [0xff],
    capabilityBytes transcript.offeredCapabilities, beBytes 2 transcript.selectedProtocol.toNat,
    capabilityBytes transcript.selectedCapabilities, beBytes 8 transcript.policyGeneration.toNat]

def digest {Digest : Type} (blake3 : List UInt8 → Digest) (transcript : NegotiationTranscript) : Digest :=
  blake3 transcript.parts.flatten

theorem version_inj {first second : UInt16} (same : beBytes 2 first.toNat = beBytes 2 second.toNat) :
    first = second :=
  UInt16.toNat_inj.mp (beBytes_injective (show _ < byteCapacity 2 from first.toNat_lt) second.toNat_lt same)

theorem capabilityBytes_inj (same : capabilityBytes first = capabilityBytes second) :
    first = second := by
  obtain ⟨items, _⟩ := first
  obtain ⟨others, _⟩ := second
  obtain rfl : items = others := rows_injective (by decide) (fun _ => beBytes_length 4 _) (fun left right same =>
    UInt32.toNat_inj.mp (beBytes_injective (show _ < byteCapacity 4 from left.toNat_lt) right.toNat_lt same)) same
  rfl

theorem parts_eq_iff {first second : NegotiationTranscript} : first.parts = second.parts ↔ first = second := by
  refine ⟨fun same => ?_, congrArg parts⟩
  obtain ⟨⟨_, _⟩, _, _, _, generation⟩ := first
  simp only [parts, List.cons.injEq, true_and, and_true] at same
  obtain ⟨versions, offers, chosen, enabled, generations⟩ := same
  have listed := rows_injective (by decide) (fun _ => beBytes_length 2 _) (fun _ _ => version_inj) versions
  have generated := beBytes_injective generation.toNat_lt second.policyGeneration.toNat_lt generations
  simp only [version_inj chosen, capabilityBytes_inj offers, capabilityBytes_inj enabled,
    UInt64.toNat_inj.mp generated, listed]

/-- Equal digests are those of one transcript exactly when no two transcripts are different cuts of
one sequence of bytes. -/
theorem transcripts_separate_iff {Digest : Type} (blake3 : List UInt8 → Digest)
    (transcripts : Set NegotiationTranscript)
    (free : Set.InjOn blake3 (Set.image (fun transcript => transcript.parts.flatten) transcripts)) :
    (∀ first ∈ transcripts, ∀ second ∈ transcripts,
        first.digest blake3 = second.digest blake3 → first = second) ↔ CutAlike parts transcripts := by
  rw [← separates_iff_cutAlike free]
  exact forall₂_congr fun first _ => forall₂_congr fun second _ => imp_congr_right fun _ => parts_eq_iff.symm

def exampleTranscript (offered : SortedSet UInt32) (selectedProtocol : UInt16) (selected : SortedSet UInt32) :
    NegotiationTranscript where
  offeredProtocols := ⟨[1], by decide⟩
  offeredCapabilities := offered
  selectedProtocol
  selectedCapabilities := selected
  policyGeneration := 1

def exampleTranscripts : Set NegotiationTranscript :=
  {exampleTranscript ⟨[], by decide⟩ 1 ⟨[], by decide⟩, exampleTranscript ⟨[7], by decide⟩ 1 ⟨[], by decide⟩}

theorem transcripts_separate_offers : CutAlike parts exampleTranscripts ∧
      ∀ first ∈ exampleTranscripts, ∀ second ∈ exampleTranscripts,
        first.digest id = second.digest id → first = second := by
  have alike : CutAlike parts exampleTranscripts := by
    rintro _ (rfl | rfl) _ (rfl | rfl) same
    · rfl
    · exact absurd same (by decide)
    · exact absurd same (by decide)
    · rfl
  exact ⟨alike, (transcripts_separate_iff id exampleTranscripts Function.injective_id.injOn).mpr alike⟩

/-- An offered capability is cut into a selected protocol and the first half of a selected capability. -/
theorem transcripts_collide : exampleTranscript ⟨[0x10002], by decide⟩ 3 ⟨[], by decide⟩ ≠
        exampleTranscript ⟨[], by decide⟩ 1 ⟨[0x20003], by decide⟩ ∧
      ∀ blake3 : List UInt8 → Vector UInt8 32,
        (exampleTranscript ⟨[0x10002], by decide⟩ 3 ⟨[], by decide⟩).digest blake3 =
          (exampleTranscript ⟨[], by decide⟩ 1 ⟨[0x20003], by decide⟩).digest blake3 :=
  ⟨by decide, fun blake3 => congrArg blake3 (by decide)⟩

end NegotiationTranscript

end Aequora.Compat
