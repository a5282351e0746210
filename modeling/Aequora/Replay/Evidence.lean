import Aequora.Base.Bytes
import Aequora.Base.Check
import Aequora.Base.Concatenation

/-! Evidence about the outside: captured results and requested side effects. Both digests run over
strings of any length one after the other. -/

namespace Aequora.Replay

open Aequora.Base

inductive ReplayError where
  | invalidName | limitExceeded | digestMismatch
deriving DecidableEq

inductive SideEffectError where
  | invalidPayload | invalidSecretReference | payloadDigestMismatch | invalidRetentionClass
deriving DecidableEq

def maxNameBytes : Nat := 128
def maxItemBytes : Nat := 4 * 1024 * 1024
def maxSideEffectPayloadBytes : Nat := 64 * 1024
def maxProviderReferenceBytes : Nat := 1024

/-- `char::is_whitespace`. -/
def isWhitespace (character : Char) : Bool :=
  let code := character.toNat
  (9 ≤ code && code ≤ 13) || code == 0x20 || code == 0x85 || code == 0xA0 || code == 0x1680 ||
    (0x2000 ≤ code && code ≤ 0x200A) || code == 0x2028 || code == 0x2029 || code == 0x202F ||
    code == 0x205F || code == 0x3000

def trim (text : String) : List Char :=
  ((text.toList.dropWhile isWhitespace).reverse.dropWhile isWhitespace).reverse

def digestParts (blake3 : List UInt8 → Vector UInt8 32) (parts : List (List UInt8)) : Vector UInt8 32 :=
  blake3 parts.flatten

def validateName (name : String) : Except ReplayError Unit :=
  require (¬(trim name = [] ∨ maxNameBytes < (textBytes name).length)) .invalidName

def validateItem (bytes : List UInt8) : Except ReplayError Unit :=
  require (¬maxItemBytes < bytes.length) .limitExceeded

@[ext] structure CapturedExternalResult where
  provider : String
  resultKind : String
  canonicalPayload : List UInt8
  digest : Vector UInt8 32

namespace CapturedExternalResult

def capture (blake3 : List UInt8 → Vector UInt8 32) (provider resultKind : String) (canonicalPayload : List UInt8) :
    Except ReplayError CapturedExternalResult := do
  validateName provider
  validateName resultKind
  validateItem canonicalPayload
  let digest := digestParts blake3
    [textBytes "aequora-external-result-v1", textBytes provider, textBytes resultKind, canonicalPayload]
  return { provider, resultKind, canonicalPayload, digest }

def verify (blake3 : List UInt8 → Vector UInt8 32) (result : CapturedExternalResult) : Except ReplayError Unit := do
  validateName result.provider
  validateName result.resultKind
  validateItem result.canonicalPayload
  let expected := digestParts blake3 [textBytes "aequora-external-result-v1", textBytes result.provider,
    textBytes result.resultKind, result.canonicalPayload]
  require (result.digest = expected) .digestMismatch

def parts (result : CapturedExternalResult) : List (List UInt8) :=
  [textBytes "aequora-external-result-v1", textBytes result.provider, textBytes result.resultKind,
    result.canonicalPayload]

/-- Both results say the same. -/
def Same (first second : CapturedExternalResult) : Prop :=
  first.provider = second.provider ∧ first.resultKind = second.resultKind ∧
    first.canonicalPayload = second.canonicalPayload

end CapturedExternalResult

structure SideEffectPayload where
  schemaVersion : UInt16
  bytes : List UInt8
  secretReferences : List String
deriving DecidableEq

namespace SideEffectPayload

def verify (payload : SideEffectPayload) : Except SideEffectError Unit := do
  require (¬(payload.schemaVersion = 0 ∨ maxSideEffectPayloadBytes < payload.bytes.length)) .invalidPayload
  require (¬∃ reference ∈ payload.secretReferences,
    textBytes reference = [] ∨ maxProviderReferenceBytes < (textBytes reference).length) .invalidSecretReference

def parts (payload : SideEffectPayload) : List (List UInt8) :=
  beBytes 2 payload.schemaVersion.toNat :: payload.bytes ::
    payload.secretReferences.flatMap fun reference => [[0], textBytes reference]

def digest (blake3 : List UInt8 → Vector UInt8 32) (payload : SideEffectPayload) : Vector UInt8 32 :=
  blake3 payload.parts.flatten

end SideEffectPayload

structure SideEffectIntent where
  payload : SideEffectPayload
  payloadDigest : Vector UInt8 32
  retentionClass : UInt16

open SideEffectIntent

def SideEffectIntent.verify (blake3 : List UInt8 → Vector UInt8 32) (intent : SideEffectIntent) :
    Except SideEffectError Unit := do
  intent.payload.verify
  require (intent.payload.digest blake3 = intent.payloadDigest) .payloadDigestMismatch
  require (intent.retentionClass ≠ 0) .invalidRetentionClass

namespace CapturedExternalResult
variable {first result : CapturedExternalResult}

theorem verify_eq_ok : result.verify blake3 = .ok () ↔
    validateName result.provider = .ok () ∧ validateName result.resultKind = .ok () ∧
      validateItem result.canonicalPayload = .ok () ∧ result.digest = blake3 result.parts.flatten := by
  simp only [verify, check_bind_eq_ok, require_eq_ok]
  rfl

theorem capture_eq_ok {provider resultKind : String} {canonicalPayload : List UInt8} :
    capture blake3 provider resultKind canonicalPayload = .ok result ↔
      result.provider = provider ∧ result.resultKind = resultKind ∧ result.canonicalPayload = canonicalPayload ∧
        result.verify blake3 = .ok () := by
  rw [verify_eq_ok]
  simp only [capture, check_bind_eq_ok]
  constructor
  · rintro ⟨named, kind, sized, made⟩
    cases made
    exact ⟨rfl, rfl, rfl, named, kind, sized, rfl⟩
  · rintro ⟨rfl, rfl, rfl, named, kind, sized, digested⟩
    refine ⟨named, kind, sized, ?_⟩
    exact congrArg Except.ok (CapturedExternalResult.ext rfl rfl rfl digested.symm)

theorem parts_eq_iff : first.parts = second.parts ↔ first.Same second := by
  simp [parts, Same, textBytes_inj]

end CapturedExternalResult

theorem references_inj {first second : List String} :
    (first.flatMap fun reference => [[0], textBytes reference]) =
      (second.flatMap fun reference => [[0], textBytes reference]) ↔ first = second := by
  refine ⟨fun same => ?_, fun same => by rw [same]⟩
  induction first generalizing second with
  | nil => cases second with
    | nil => rfl
    | cons _ _ => simp at same
  | cons _ _ ih => cases second with
    | nil => simp at same
    | cons _ _ =>
      simp only [List.flatMap_cons, List.cons_append, List.nil_append, List.cons.injEq, true_and] at same
      rw [textBytes_inj.mp same.1, ih same.2]

namespace SideEffectPayload
variable {second : SideEffectPayload}

theorem parts_eq_iff : first.parts = second.parts ↔ first = second := by
  refine ⟨fun same => ?_, congrArg parts⟩
  obtain ⟨version, _, _⟩ := first
  obtain ⟨otherVersion, _, _⟩ := second
  simp only [parts, List.cons.injEq, references_inj] at same
  obtain ⟨written, rfl, rfl⟩ := same
  have read := congrArg ofBeBytes written
  rw [ofBeBytes_beBytes version.toNat_lt, ofBeBytes_beBytes otherVersion.toNat_lt] at read
  rw [UInt16.toNat_inj.mp read]

end SideEffectPayload

theorem SideEffectIntent.verify_eq_ok {intent : SideEffectIntent} : intent.verify blake3 = .ok () ↔
    intent.payload.verify = .ok () ∧ intent.payloadDigest = blake3 intent.payload.parts.flatten ∧
      intent.retentionClass ≠ 0 := by
  simp only [verify, check_bind_eq_ok, require_eq_ok]
  exact and_congr_right fun _ => and_congr_left fun _ => eq_comm

/-- Verified evidence with equal digests says the same exactly when no two captured results, and no two payloads, are
different cuts of one sequence of bytes. -/
theorem evidence_binds_iff {results : Set CapturedExternalResult} {intents : Set SideEffectIntent}
    (captured : ∀ result ∈ results, result.verify blake3 = .ok ())
    (intended : ∀ intent ∈ intents, intent.verify blake3 = .ok ())
    (resultsFree : Set.InjOn blake3 (Set.image (fun result => result.parts.flatten) results))
    (intentsFree : Set.InjOn blake3 (Set.image (fun intent => intent.payload.parts.flatten) intents)) :
    ((∀ first ∈ results, ∀ second ∈ results, first.digest = second.digest → first.Same second) ∧
      ∀ first ∈ intents, ∀ second ∈ intents,
        first.payloadDigest = second.payloadDigest → first.payload = second.payload) ↔
      CutAlike CapturedExternalResult.parts results ∧ CutAlike (fun intent => intent.payload.parts) intents := by
  rw [← separates_iff_cutAlike resultsFree, ← separates_iff_cutAlike intentsFree]
  refine and_congr ?_ ?_
  · refine forall₂_congr fun first known => forall₂_congr fun second listed => ?_
    obtain ⟨-, -, -, left⟩ := CapturedExternalResult.verify_eq_ok.mp (captured first known)
    obtain ⟨-, -, -, right⟩ := CapturedExternalResult.verify_eq_ok.mp (captured second listed)
    rw [left, right, CapturedExternalResult.parts_eq_iff]
  · refine forall₂_congr fun first known => forall₂_congr fun second listed => ?_
    obtain ⟨-, left, -⟩ := verify_eq_ok.mp (intended first known)
    obtain ⟨-, right, -⟩ := verify_eq_ok.mp (intended second listed)
    rw [left, right, SideEffectPayload.parts_eq_iff]

def exampleResult (blake3 : List UInt8 → Vector UInt8 32) (provider resultKind : String) : CapturedExternalResult where
  provider
  resultKind
  canonicalPayload := [7]
  digest := digestParts blake3
    [textBytes "aequora-external-result-v1", textBytes provider, textBytes resultKind, [7]]

def exampleIntent (blake3 : List UInt8 → Vector UInt8 32) (bytes : List UInt8) (secretReferences : List String) :
    SideEffectIntent where
  payload := { schemaVersion := 1, bytes, secretReferences }
  payloadDigest := SideEffectPayload.digest blake3 { schemaVersion := 1, bytes, secretReferences }
  retentionClass := 1

def exampleHash (message : List UInt8) : Vector UInt8 32 := Vector.ofFn fun index => message.getD index 0

def exampleResults : Set CapturedExternalResult :=
  {exampleResult exampleHash "a" "k", exampleResult exampleHash "b" "k"}

def exampleIntents : Set SideEffectIntent :=
  {exampleIntent exampleHash [1] [], exampleIntent exampleHash [1] ["x"]}

/-- Results of two providers, and intents with and without a secret. -/
theorem evidence_binds_iff_providers : CutAlike CapturedExternalResult.parts exampleResults ∧
      CutAlike (fun intent => intent.payload.parts) exampleIntents ∧
      (exampleResult exampleHash "a" "k").digest ≠ (exampleResult exampleHash "b" "k").digest ∧
      (exampleIntent exampleHash [1] []).payloadDigest ≠ (exampleIntent exampleHash [1] ["x"]).payloadDigest := by
  have captured : ∀ result ∈ exampleResults, result.verify exampleHash = .ok () := by
    rintro result (rfl | rfl) <;> decide
  have intended : ∀ intent ∈ exampleIntents, intent.verify exampleHash = .ok () := by
    rintro intent (rfl | rfl) <;> decide
  have resultsFree : Set.InjOn exampleHash (Set.image (fun result => result.parts.flatten) exampleResults) := by
    rw [exampleResults, Set.image_pair, Set.injOn_pair]
    exact fun same => absurd same (by decide)
  have intentsFree :
      Set.InjOn exampleHash (Set.image (fun intent => intent.payload.parts.flatten) exampleIntents) := by
    rw [exampleIntents, Set.image_pair, Set.injOn_pair]
    exact fun same => absurd same (by decide)
  have results : CutAlike CapturedExternalResult.parts exampleResults := by
    rintro first (rfl | rfl) second (rfl | rfl) _ <;> rfl
  have intents : CutAlike (fun intent => intent.payload.parts) exampleIntents := by
    rintro _ (rfl | rfl) _ (rfl | rfl) same
    · rfl
    · exact absurd same (by decide)
    · exact absurd same (by decide)
    · rfl
  obtain ⟨told, asked⟩ := (evidence_binds_iff captured intended resultsFree intentsFree).mpr ⟨results, intents⟩
  refine ⟨results, intents, fun collide => ?_, fun collide => ?_⟩
  · exact absurd (told _ (.inl rfl) _ (.inr rfl) collide).1 (by decide)
  · exact absurd (asked _ (.inl rfl) _ (.inr rfl) collide) (by decide)

theorem exampleResult_verify (named : validateName provider = .ok ())
    (kind : validateName resultKind = .ok ()) : (exampleResult blake3 provider resultKind).verify blake3 = .ok () :=
  CapturedExternalResult.verify_eq_ok.mpr ⟨named, kind, rfl, rfl⟩

theorem exampleIntent_verify (valid : SideEffectPayload.verify ⟨1, bytes, secretReferences⟩ = .ok ()) :
    (exampleIntent blake3 bytes secretReferences).verify blake3 = .ok () := by
  have kept : (1 : UInt16) ≠ 0 := by decide
  exact verify_eq_ok.mpr ⟨valid, rfl, kept⟩

/-- Whatever the hash is, a provider and a kind may be cut elsewhere, and a payload may spell a reference. -/
theorem evidence_digests_collide : (∀ blake3 : List UInt8 → Vector UInt8 32,
      (exampleResult blake3 "ab" "c").verify blake3 = .ok () ∧
        (exampleResult blake3 "a" "bc").verify blake3 = .ok () ∧
        (exampleResult blake3 "ab" "c").digest = (exampleResult blake3 "a" "bc").digest ∧
        ¬(exampleResult blake3 "ab" "c").Same (exampleResult blake3 "a" "bc")) ∧
      ∀ blake3 : List UInt8 → Vector UInt8 32,
        (exampleIntent blake3 [1] ["x"]).verify blake3 = .ok () ∧
          (exampleIntent blake3 [1, 0, 120] []).verify blake3 = .ok () ∧
          (exampleIntent blake3 [1] ["x"]).payloadDigest = (exampleIntent blake3 [1, 0, 120] []).payloadDigest ∧
          (exampleIntent blake3 [1] ["x"]).payload ≠ (exampleIntent blake3 [1, 0, 120] []).payload := by
  have providers : "ab" ≠ "a" := by decide
  have payloads : [(1 : UInt8)] ≠ [1, 0, 120] := by decide
  refine ⟨fun blake3 => ⟨?_, ?_, ?_, ?_⟩, fun blake3 => ⟨?_, ?_, ?_, ?_⟩⟩
  · exact exampleResult_verify (by decide) (by decide)
  · exact exampleResult_verify (by decide) (by decide)
  · exact congrArg blake3 (by decide)
  · exact fun same => providers same.1
  · exact exampleIntent_verify (by decide)
  · exact exampleIntent_verify (by decide)
  · exact congrArg blake3 (by decide)
  · exact fun same => payloads (congrArg SideEffectPayload.bytes same)

end Aequora.Replay
