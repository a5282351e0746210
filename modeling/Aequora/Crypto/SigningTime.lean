import Aequora.Crypto.Signature

/-! What a signature authenticates. An accepted signature was made over the same content, but the
signing time stands beside the digest, so any time the record of the key permits is as good as the
true one. -/

namespace Aequora.Crypto

open Std Aequora.Base Aequora.Protocol SignatureScheme Option

variable {Content Digest : Type}

inductive SignedContent (Content Digest : Type) where
  | operation (operation : SemanticOperation)
  | artifact (manifest : UnsignedArtifactManifest Content Digest)
  | checkpoint (body : CheckpointBody)

namespace SignedContent

def domain : SignedContent Content Digest → DigestDomain
  | .operation _ => .operation
  | .artifact _ => .artifactManifest
  | .checkpoint _ => .checkpoint

def bytes (codec : Codec Content Digest) : SignedContent Content Digest → Option (List UInt8)
  | .operation semantic => codec.operationBytes semantic
  | .artifact manifest => codec.manifestBytes manifest
  | .checkpoint body => codec.checkpointBytes body

def digest (codec : Codec Content Digest) (content : SignedContent Content Digest) : Option Digest :=
  (content.bytes codec).map (codec.domainDigest content.domain)

end SignedContent

structure Signing (Content Digest : Type) where
  publicKey : PublicKeyBytes
  content : SignedContent Content Digest
  signedAt : CryptoTimestamp

/-- Hashing and encoding lose nothing. -/
structure Codec.Injective (codec : Codec Content Digest) : Prop where
  blake3 : ∀ first second, codec.blake3 first = codec.blake3 second → first = second
  operationBytes : ∀ first second bytes, codec.operationBytes first = some bytes →
    codec.operationBytes second = some bytes → first = second
  manifestBytes : ∀ first second bytes, codec.manifestBytes first = some bytes →
    codec.manifestBytes second = some bytes → first = second
  checkpointBytes : ∀ first second bytes, codec.checkpointBytes first = some bytes →
    codec.checkpointBytes second = some bytes → first = second

/-- A signature verifies only under a key whose holder signed the digest. -/
def SignatureScheme.Ideal (scheme : SignatureScheme Digest) (codec : Codec Content Digest)
    (history : List (Signing Content Digest)) : Prop :=
  ∀ publicKey digest signature, scheme.verifies publicKey digest signature = true →
    ∃ signing ∈ history, signing.publicKey = publicKey ∧ signing.content.digest codec = some digest

/-- The scheme that accepts exactly what a history of signings vouches for. -/
def SignatureScheme.recorded [DecidableEq Digest] (codec : Codec Content Digest)
    (history : List (Signing Content Digest)) : SignatureScheme Digest where
  validKey _ := true
  validSignature _ := true
  verifies publicKey digest _ :=
    history.any fun signing => signing.publicKey = publicKey ∧ signing.content.digest codec = some digest

theorem SignatureScheme.recorded_ideal [DecidableEq Digest] (codec : Codec Content Digest)
    (history : List (Signing Content Digest)) : (recorded codec history).Ideal codec history := by
  intro _ _ _ verified
  obtain ⟨signing, made, matching⟩ := List.any_eq_true.mp verified
  exact ⟨signing, made, of_decide_eq_true matching⟩

theorem domainFrame_injective
    (same : domainFrame domain bytes = domainFrame other content) : domain = other ∧ bytes = content := by
  -- The four domain names have different lengths, and the length comes first.
  have names : ∀ first second : DigestDomain,
      leBytes 8 (asciiBytes first.name).length = leBytes 8 (asciiBytes second.name).length →
        first = second := by
    intro first second
    cases first <;> cases second <;> decide
  obtain ⟨lengths, rest⟩ := List.append_inj (List.append_cancel_left same) (by simp)
  cases names domain other lengths
  exact ⟨rfl, (List.append_inj (List.append_cancel_left rest) (by simp)).2⟩

namespace Codec
variable {codec : Codec Content Digest}

theorem Injective.domainDigest (injective : codec.Injective) (same : codec.domainDigest domain bytes = codec.domainDigest other content) :
    domain = other ∧ bytes = content :=
  domainFrame_injective (injective.blake3 _ _ same)

theorem Injective.content (injective : codec.Injective) {first second : SignedContent Content Digest} (left : first.digest codec = some digest) (right : second.digest codec = some digest) :
    first = second := by
  obtain ⟨bytes, encoded, hashed⟩ := map_eq_some_iff.mp left
  obtain ⟨_, reencoded, rehashed⟩ := map_eq_some_iff.mp right
  obtain ⟨domains, rfl⟩ := injective.domainDigest (hashed.trans rehashed.symm)
  cases first with
  | operation semantic =>
    cases second with
    | operation other => rw [injective.operationBytes semantic other bytes encoded reencoded]
    | artifact => cases domains
    | checkpoint => cases domains
  | artifact manifest =>
    cases second with
    | operation => cases domains
    | artifact other => rw [injective.manifestBytes manifest other bytes encoded reencoded]
    | checkpoint => cases domains
  | checkpoint body =>
    cases second with
    | operation => cases domains
    | artifact => cases domains
    | checkpoint other => rw [injective.checkpointBytes body other bytes encoded reencoded]

end Codec

/-- A value presented to a verifier, with what the verifier trusts. -/
inductive Presented (Content Digest : Type) where
  | operation (signed : SignedOperation) (expectedDevice : DeviceId) (registry : DeviceKeyRegistry)
      (policy : CryptoPolicy)
  | artifact (signed : SignedArtifactManifest Content Digest) (trust : TrustContext)
  | checkpoint (signed : SignedCheckpoint) (trust : TrustContext)

namespace Presented

def content : Presented Content Digest → SignedContent Content Digest
  | .operation signed .. => .operation (.of signed.operation)
  | .artifact signed _ => .artifact signed.manifest
  | .checkpoint signed _ => .checkpoint signed.body

def signature : Presented Content Digest → SignatureEnvelope
  | .operation signed .. => signed.signature
  | .artifact signed _ => signed.signature
  | .checkpoint signed _ => signed.signature

/-- The value with another signing time in its envelope. -/
def dated (signedAt : CryptoTimestamp) : Presented Content Digest → Presented Content Digest
  | .operation signed expectedDevice registry policy =>
    .operation { signed with signature := { signed.signature with signedAt } }
      expectedDevice registry policy
  | .artifact signed trust =>
    .artifact { signed with signature := { signed.signature with signedAt } } trust
  | .checkpoint signed trust =>
    .checkpoint { signed with signature := { signed.signature with signedAt } } trust

/-- The key the verifier finds for the envelope. -/
def publicKey? : Presented Content Digest → Option PublicKeyBytes
  | .operation signed _ registry _ => (registry.key signed.signature.keyId).map DeviceKeyRecord.publicKey
  | .artifact signed trust => (trust.registry.key signed.signature.keyId).map KeyRecord.publicKey
  | .checkpoint signed trust => (trust.registry.key signed.signature.keyId).map KeyRecord.publicKey

/-- The record of the key covers a signing time. -/
def Permits (signedAt : CryptoTimestamp) : Presented Content Digest → Prop
  | .operation signed _ registry _ => ∃ record ∈ registry.key signed.signature.keyId,
    outsideValidity record.notBefore record.notAfter signedAt = false ∧
      revokedFor record.revokedAt record.status signedAt = false
  | .artifact signed trust => ∃ record ∈ trust.registry.key signed.signature.keyId,
    outsideValidity record.notBefore record.notAfter signedAt = false ∧
      revokedFor record.revokedAt record.status signedAt = false
  | .checkpoint signed trust => ∃ record ∈ trust.registry.key signed.signature.keyId,
    outsideValidity record.notBefore record.notAfter signedAt = false ∧
      revokedFor record.revokedAt record.status signedAt = false

/-- The holder of the key signed this content with this time. -/
def SignedAt (history : List (Signing Content Digest)) (signedAt : CryptoTimestamp)
    (presented : Presented Content Digest) : Prop :=
  ∃ publicKey ∈ presented.publicKey?, ∃ signing ∈ history,
    signing.publicKey = publicKey ∧ signing.content = presented.content ∧ signing.signedAt = signedAt

variable (codec : Codec Content Digest) (scheme : SignatureScheme Digest)

def verify [DecidableEq Digest] : Presented Content Digest → Except VerificationError Unit
  | .operation signed expectedDevice registry policy =>
    (verifyOperationSignature codec scheme signed expectedDevice registry policy).map fun _ => ()
  | .artifact signed trust => verifyArtifact codec scheme signed trust
  | .checkpoint signed trust => verifyCheckpoint codec scheme signed trust

/-- The signature of the value is good for its content under a key. -/
def Verifies (publicKey : PublicKeyBytes) (presented : Presented Content Digest) : Prop :=
  ∃ digest, presented.content.digest codec = some digest ∧
    verifyDigest scheme publicKey digest presented.signature = .ok ()

/-- Everything a verifier checks but the signing time. -/
def Passes (presented : Presented Content Digest) : Prop :=
  match presented with
  | .operation signed expectedDevice registry policy =>
    (signed.signature.algorithm ∈ policy.allowedSignatures ∧
      signed.signature.purpose = .deviceOperationSigning ∧ signed.operation.deviceId = expectedDevice) ∧
    ∃ record ∈ registry.key signed.signature.keyId, record.deviceId = expectedDevice ∧
      presented.Verifies codec scheme record.publicKey
  | .artifact signed trust =>
    (signed.manifest.tenantId = trust.tenantId ∧ signed.manifest.artifactType = trust.artifactType ∧
      ¬(signed.manifest.artifactType.requiredPurpose ≠ trust.expectedPurpose ∨
        signed.signature.purpose ≠ trust.expectedPurpose) ∧
      signed.manifest.digestAlgorithm ∈ trust.policy.allowedDigests ∧
      signed.signature.algorithm ∈ trust.policy.allowedSignatures ∧
      ¬signed.manifest.cryptoPolicyVersion > trust.policy.version ∧
      (codec.contentBytes signed.manifest.content).map (codec.domainDigest .artifactContent) =
        some signed.manifest.contentDigest) ∧
    ∃ record ∈ trust.registry.key signed.signature.keyId,
      (record.purpose = trust.expectedPurpose ∧
        ¬(record.tenantId.any fun tenant => decide (tenant ≠ trust.tenantId)) ∧
        ¬(¬record.status.permitsVerification ∧ record.status ≠ .revoked)) ∧
      presented.Verifies codec scheme record.publicKey
  | .checkpoint signed trust =>
    (signed.body.tenantId = trust.tenantId ∧ signed.signature.purpose = trust.expectedPurpose ∧
      signed.signature.algorithm = .ed25519V1) ∧
    ∃ record ∈ trust.registry.key signed.signature.keyId,
      (record.purpose = trust.expectedPurpose ∧
        ¬(record.tenantId.any fun tenant => decide (tenant ≠ signed.body.tenantId)) ∧
        ¬(¬record.status.permitsVerification ∧ record.status ≠ .revoked)) ∧
      presented.Verifies codec scheme record.publicKey

variable {codec scheme}

theorem encoded_bind_eq_ok :
    (encoded result >>= rest) = .ok value ↔ ∃ digest, result = some digest ∧ rest digest = .ok value := by
  cases result with
  | none => simp [encoded, Bind.bind, Except.bind]
  | some _ => simp [encoded, Bind.bind, Except.bind]

theorem verifyAuthorization_eq_ok {record : KeyRecord} :
    record.verifyAuthorization tenantId purpose signatureTime = .ok () ↔
      (record.purpose = purpose ∧ ¬(record.tenantId.any fun tenant => decide (tenant ≠ tenantId)) ∧
        ¬(¬record.status.permitsVerification ∧ record.status ≠ .revoked)) ∧
      outsideValidity record.notBefore record.notAfter signatureTime = false ∧
        revokedFor record.revokedAt record.status signatureTime = false := by
  simp only [KeyRecord.verifyAuthorization, bind_eq_ok, require_eq_ok, Bool.not_eq_true]
  tauto

theorem operation_verify_iff :
    (∃ digest, verifyOperationSignature codec scheme signed expectedDevice registry policy = .ok digest) ↔
      (operation signed expectedDevice registry policy : Presented Content Digest).Passes codec scheme ∧
        (operation signed expectedDevice registry policy : Presented Content Digest).Permits
          signed.signature.signedAt := by
  simp only [verifyOperationSignature, check_bind_eq_ok, require_eq_ok, Passes, Permits, Verifies]
  cases registry.key signed.signature.keyId with
  | none => simp
  | some _ =>
    simp only [check_bind_eq_ok, require_eq_ok, encoded_bind_eq_ok, mem_some_iff, exists_eq_left',
      Bool.not_eq_true]
    constructor
    · rintro ⟨_, algorithm, purpose, device, owner, valid, unrevoked, digest, hashed, verified, _⟩
      exact ⟨⟨⟨algorithm, purpose, device⟩, owner, digest, hashed, verified⟩, valid, unrevoked⟩
    · rintro ⟨⟨⟨algorithm, purpose, device⟩, owner, digest, hashed, verified⟩, valid, unrevoked⟩
      exact ⟨digest, algorithm, purpose, device, owner, valid, unrevoked, digest, hashed, verified, rfl⟩

theorem artifact_verify_iff [DecidableEq Digest] {signed : SignedArtifactManifest Content Digest} :
    verifyArtifact codec scheme signed trust = .ok () ↔
      (artifact signed trust).Passes codec scheme ∧ (artifact signed trust).Permits signed.signature.signedAt := by
  simp only [verifyArtifact, check_bind_eq_ok, require_eq_ok, encoded_bind_eq_ok, Passes, Permits, Verifies]
  cases trust.registry.key signed.signature.keyId with
  | none => simp
  | some _ =>
    simp only [check_bind_eq_ok, encoded_bind_eq_ok, verifyAuthorization_eq_ok, mem_some_iff,
      exists_eq_left']
    constructor
    · rintro ⟨tenant, kind, purpose, hash, algorithm, version, _, content, rfl, ⟨owner, lifecycle⟩, digest,
        hashed, verified⟩
      exact ⟨⟨⟨tenant, kind, purpose, hash, algorithm, version, content⟩, owner, digest, hashed, verified⟩,
        lifecycle⟩
    · rintro ⟨⟨⟨tenant, kind, purpose, hash, algorithm, version, content⟩, owner, digest, hashed, verified⟩,
        lifecycle⟩
      exact ⟨tenant, kind, purpose, hash, algorithm, version, _, content, rfl, ⟨owner, lifecycle⟩, digest,
        hashed, verified⟩

theorem checkpoint_verify_iff {signed : SignedCheckpoint} :
    verifyCheckpoint codec scheme signed trust = .ok () ↔
      (checkpoint signed trust : Presented Content Digest).Passes codec scheme ∧
        (checkpoint signed trust : Presented Content Digest).Permits signed.signature.signedAt := by
  simp only [verifyCheckpoint, check_bind_eq_ok, require_eq_ok, Passes, Permits, Verifies]
  cases trust.registry.key signed.signature.keyId with
  | none => simp
  | some _ =>
    simp only [check_bind_eq_ok, encoded_bind_eq_ok, verifyAuthorization_eq_ok, mem_some_iff,
      exists_eq_left']
    constructor
    · rintro ⟨tenant, purpose, algorithm, ⟨owner, lifecycle⟩, digest, hashed, verified⟩
      exact ⟨⟨⟨tenant, purpose, algorithm⟩, owner, digest, hashed, verified⟩, lifecycle⟩
    · rintro ⟨⟨⟨tenant, purpose, algorithm⟩, owner, digest, hashed, verified⟩, lifecycle⟩
      exact ⟨tenant, purpose, algorithm, ⟨owner, lifecycle⟩, digest, hashed, verified⟩

section Verified
variable [DecidableEq Digest] {presented : Presented Content Digest}

theorem verify_iff : presented.verify codec scheme = .ok () ↔
      presented.Passes codec scheme ∧ presented.Permits presented.signature.signedAt := by
  cases presented with
  | operation signed _ _ _ =>
    rw [verify, map_eq_ok_iff]
    simp only [and_true]
    exact operation_verify_iff
  | artifact signed trust => exact artifact_verify_iff
  | checkpoint _ _ => exact checkpoint_verify_iff

theorem verify_dated_iff : (presented.dated signedAt).verify codec scheme = .ok () ↔
      presented.Passes codec scheme ∧ presented.Permits signedAt := by
  rw [verify_iff]
  cases presented <;> exact Iff.rfl

theorem signed_of_verified {history : List (Signing Content Digest)} (injective : codec.Injective)
    (ideal : scheme.Ideal codec history) (accepted : presented.verify codec scheme = .ok ()) :
    ∃ publicKey ∈ presented.publicKey?, ∃ signing ∈ history,
      signing.publicKey = publicKey ∧ signing.content = presented.content := by
  -- Whatever the value is, its passing ends in a signature that is good under the key found.
  have good : ∃ publicKey ∈ presented.publicKey?, presented.Verifies codec scheme publicKey := by
    have passes := (verify_iff.mp accepted).1
    cases presented <;>
      obtain ⟨_, record, found, _, verified⟩ := passes <;>
      exact ⟨record.publicKey, mem_map_of_mem _ found, verified⟩
  obtain ⟨publicKey, found, digest, hashed, verified⟩ := good
  simp only [verifyDigest, bind_eq_ok, require_eq_ok] at verified
  obtain ⟨signing, made, holder, signed⟩ := ideal publicKey digest _ verified.2.2.2
  exact ⟨publicKey, found, signing, made, holder, injective.content signed hashed⟩

end Verified

/-! A key that signs one value of each kind, and a codec that encodes just these values. -/

def exampleKeyId : SigningKeyId := ⟨1⟩
def exampleKey : PublicKeyBytes := ⟨Vector.replicate 32 1⟩

def exampleOperation : OperationEnvelope where
  protocolVersion := 1
  operationId := ⟨1⟩
  tenantId := ⟨1⟩
  actorId := ⟨1⟩
  deviceId := ⟨1⟩
  entity := { entityType := 1, entityId := ⟨1⟩ }
  baseVersion := none
  createdAt := { physicalMs := 0, logical := 0, node := ⟨1⟩ }
  schemaVersion := 1
  operationKind := 1
  payload := []
  metadata := { traceId := none, dependencies := [], lineage := { correlationId := ⟨0⟩, causedBy := none } }

def exampleSigning : ArtifactSigningContext where
  artifactType := .snapshot
  formatVersion := 1
  policyVersion := 1
  tenantId := ⟨1⟩

def exampleManifest : UnsignedArtifactManifest Unit (List UInt8) where
  artifactType := .snapshot
  formatVersion := 1
  cryptoPolicyVersion := 1
  tenantId := ⟨1⟩
  content := ()
  digestAlgorithm := .blake3V1
  contentDigest := domainFrame .artifactContent []

def exampleBody : CheckpointBody where
  tenantId := ⟨1⟩
  scope := .journal ⟨1⟩
  sequence := 1
  rootHash := Vector.replicate 32 0

def exampleCodec : Codec Unit (List UInt8) where
  blake3 bytes := bytes
  operationBytes semantic := if semantic = .of exampleOperation then some [] else none
  contentBytes _ := some []
  manifestBytes manifest := if manifest = exampleManifest then some [] else none
  checkpointBytes body := if body = exampleBody then some [] else none

theorem exampleCodec_injective : exampleCodec.Injective where
  blake3 _ _ same := same
  operationBytes first second bytes left right := by
    simp only [exampleCodec, ite_none_right_eq_some] at left right
    rw [left.1, right.1]
  manifestBytes first second bytes left right := by
    simp only [exampleCodec, ite_none_right_eq_some] at left right
    rw [left.1, right.1]
  checkpointBytes first second bytes left right := by
    simp only [exampleCodec, ite_none_right_eq_some] at left right
    rw [left.1, right.1]

def exampleProvider : KeyProvider (List UInt8) where
  sign _ _ _ := .ok ⟨List.replicate 64 0⟩

/-- The key signs each of the three values once. -/
def exampleHistory (signedAt : CryptoTimestamp) : List (Signing Unit (List UInt8)) :=
  [.operation (.of exampleOperation), .artifact exampleManifest, .checkpoint exampleBody].map fun content =>
    { publicKey := exampleKey, content, signedAt }

def exampleEnvelope (purpose : KeyPurpose) (signedAt : CryptoTimestamp) : SignatureEnvelope where
  algorithm := .ed25519V1
  keyId := exampleKeyId
  purpose
  signedAt
  signature := ⟨List.replicate 64 0⟩

section
variable (notBefore : CryptoTimestamp) (notAfter revokedAt : Option CryptoTimestamp)

def exampleDevices : DeviceKeyRegistry where
  keys := ExtTreeMap.empty.insert exampleKeyId {
    deviceId := ⟨1⟩
    keyId := exampleKeyId
    algorithm := .ed25519V1
    publicKey := exampleKey
    status := .active
    notBefore
    notAfter
    revokedAt }

def exampleTrust : TrustContext where
  tenantId := ⟨1⟩
  artifactType := .snapshot
  expectedPurpose := .serverArtifactSigning
  registry := { keys := ExtTreeMap.empty.insert exampleKeyId {
    keyId := exampleKeyId
    tenantId := none
    purpose := .serverArtifactSigning
    publicKey := exampleKey
    status := .active
    notBefore
    notAfter
    revokedAt } }
  policy := .standard

/-- The three values as they stand in envelopes of one time, for a key with this record. -/
def examplePresented (signedAt : CryptoTimestamp) : List (Presented Unit (List UInt8)) :=
  [.operation ⟨exampleOperation, exampleEnvelope .deviceOperationSigning signedAt⟩ ⟨1⟩
      (exampleDevices notBefore notAfter revokedAt) .standard,
    .artifact ⟨exampleManifest, exampleEnvelope .serverArtifactSigning signedAt⟩
      (exampleTrust notBefore notAfter revokedAt),
    .checkpoint ⟨exampleBody, exampleEnvelope .serverArtifactSigning signedAt⟩
      (exampleTrust notBefore notAfter revokedAt)]

end

end Presented

end Aequora.Crypto
