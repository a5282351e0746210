import Aequora.Base.Check
import Aequora.Protocol.Types

/-! Signed operations, artifacts and checkpoints. The hash, the canonical encodings and the
signature scheme are parameters. -/

namespace Aequora.Crypto

open Std Aequora.Base Aequora.Protocol

structure SigningKeyId where
  uuid : BitVec 128
deriving DecidableEq

instance signingKeyIdOrd : Ord SigningKeyId := ⟨compareOn SigningKeyId.uuid⟩
instance signingKeyIdTransOrd : TransOrd SigningKeyId := inferInstanceAs (TransCmp (compareOn SigningKeyId.uuid))

abbrev CryptoTimestamp := Int
abbrev CryptoPolicyVersion := UInt32

inductive DigestAlgorithm where
  | blake3V1
deriving DecidableEq

inductive SignatureAlgorithm where
  | ed25519V1
deriving DecidableEq

inductive KeyPurpose where
  | serverArtifactSigning | deviceOperationSigning | tenantDataEncryption | snapshotEncryption
  | exportEncryption | replayBundleEncryption | auditArchiveEncryption | auditCheckpointSigning
  | registrySigning | releaseArtifactSigning | releaseManifestSigning | updateMetadataSigning
  | containerSigning | platformApplicationSigning | gitTagSigning
deriving DecidableEq

inductive KeyStatus where
  | pending | active | retiring | verificationOnly | revoked | destroyed
deriving DecidableEq

def KeyStatus.permitsVerification : KeyStatus → Bool
  | .active | .retiring | .verificationOnly => true
  | _ => false

structure PublicKeyBytes where
  bytes : Vector UInt8 32
deriving DecidableEq

structure SignatureBytes where
  bytes : List UInt8

def SignatureBytes.ed25519Length : Nat := 64

structure SignatureEnvelope where
  algorithm : SignatureAlgorithm
  keyId : SigningKeyId
  purpose : KeyPurpose
  signedAt : CryptoTimestamp
  signature : SignatureBytes

inductive SigningError where
  | keyUnknown | purposeMismatch | keyNotActive | randomnessUnavailable | canonicalEncoding
  | providerUnavailable | providerDenied

inductive VerificationError where
  | digestMismatch | signatureInvalid | keyUnknown | keyRevoked | keyExpired | purposeMismatch
  | algorithmDisallowed | tenantMismatch | artifactTypeMismatch | canonicalEncoding | deviceMismatch
  | deviceKeyUnavailable

structure CryptoPolicy where
  version : CryptoPolicyVersion
  allowedDigests : List DigestAlgorithm
  allowedSignatures : List SignatureAlgorithm

def CryptoPolicy.standard : CryptoPolicy where
  version := 1
  allowedDigests := [.blake3V1]
  allowedSignatures := [.ed25519V1]

def outsideValidity (notBefore : CryptoTimestamp) (notAfter : Option CryptoTimestamp)
    (signedAt : CryptoTimestamp) : Bool :=
  decide (signedAt < notBefore) || notAfter.any fun last => decide (last < signedAt)

def revokedFor (revokedAt : Option CryptoTimestamp) (status : KeyStatus) (signedAt : CryptoTimestamp) : Bool :=
  (revokedAt.any fun revoked => decide (revoked ≤ signedAt)) || status == .destroyed

structure DeviceKeyRecord where
  deviceId : DeviceId
  keyId : SigningKeyId
  algorithm : SignatureAlgorithm
  publicKey : PublicKeyBytes
  status : KeyStatus
  notBefore : CryptoTimestamp
  (notAfter revokedAt : Option CryptoTimestamp)

structure DeviceKeyRegistry where
  keys : ExtTreeMap SigningKeyId DeviceKeyRecord

def DeviceKeyRegistry.key (registry : DeviceKeyRegistry) (keyId : SigningKeyId) : Option DeviceKeyRecord :=
  registry.keys[keyId]?

structure KeyRecord where
  keyId : SigningKeyId
  tenantId : Option TenantId
  purpose : KeyPurpose
  publicKey : PublicKeyBytes
  status : KeyStatus
  notBefore : CryptoTimestamp
  (notAfter revokedAt : Option CryptoTimestamp)
deriving DecidableEq

/-- Purpose, tenant, validity interval and revocation time for a signature. -/
def KeyRecord.verifyAuthorization (record : KeyRecord) (tenantId : TenantId) (purpose : KeyPurpose)
    (signatureTime : CryptoTimestamp) : Except VerificationError Unit := do
  require (record.purpose = purpose) .purposeMismatch
  require (¬record.tenantId.any fun tenant => decide (tenant ≠ tenantId)) .tenantMismatch
  require (¬outsideValidity record.notBefore record.notAfter signatureTime) .keyExpired
  require (¬revokedFor record.revokedAt record.status signatureTime) .keyRevoked
  require (¬(¬record.status.permitsVerification ∧ record.status ≠ .revoked)) .keyRevoked

structure TrustedKeyRegistry where
  keys : ExtTreeMap SigningKeyId KeyRecord

def TrustedKeyRegistry.key (registry : TrustedKeyRegistry) (keyId : SigningKeyId) : Option KeyRecord :=
  registry.keys[keyId]?

inductive ArtifactType where
  | snapshot
  | «export»
  | replayBundle
  | auditCheckpoint
  | migrationManifest
  | governanceVerification
  | offlineSyncBundle
deriving DecidableEq

def ArtifactType.requiredPurpose : ArtifactType → KeyPurpose
  | .auditCheckpoint => .auditCheckpointSigning
  | _ => .serverArtifactSigning

structure TrustContext where
  tenantId : TenantId
  artifactType : ArtifactType
  expectedPurpose : KeyPurpose
  registry : TrustedKeyRegistry
  policy : CryptoPolicy

/-- What an operation means: its envelope without the trace, under its resolved lineage. -/
structure SemanticOperation where
  protocolVersion : UInt16
  operationId : OperationId
  tenantId : TenantId
  actorId : ActorId
  deviceId : DeviceId
  entity : EntityRef
  baseVersion : Option EntityVersion
  createdAt : HybridTimestamp
  (schemaVersion operationKind : UInt16)
  payload : List UInt8
  dependencies : List OperationId
  lineage : LineageContext
deriving DecidableEq

def SemanticOperation.of (operation : OperationEnvelope) : SemanticOperation where
  protocolVersion := operation.protocolVersion
  operationId := operation.operationId
  tenantId := operation.tenantId
  actorId := operation.actorId
  deviceId := operation.deviceId
  entity := operation.entity
  baseVersion := operation.baseVersion
  createdAt := operation.createdAt
  schemaVersion := operation.schemaVersion
  operationKind := operation.operationKind
  payload := operation.payload
  dependencies := operation.metadata.dependencies
  lineage := operation.metadata.lineage.resolvedForOperation operation.operationId

structure SignedOperation where
  operation : OperationEnvelope
  signature : SignatureEnvelope

inductive CheckpointScope where
  | journal (scope : SyncScopeId)
  | audit (stream : UInt16)
deriving DecidableEq

structure CheckpointBody where
  tenantId : TenantId
  scope : CheckpointScope
  sequence : Sequence
  rootHash : Vector UInt8 32
deriving DecidableEq

structure SignedCheckpoint where
  body : CheckpointBody
  signature : SignatureEnvelope

inductive DigestDomain where
  | operation | artifactContent | artifactManifest | checkpoint
deriving DecidableEq

def DigestDomain.name : DigestDomain → String
  | .operation => "AEQUORA:SIGNED-OP:v1"
  | .artifactContent => "AEQUORA:ARTIFACT-CONTENT:v1"
  | .artifactManifest => "AEQUORA:SIGNED-ARTIFACT-MANIFEST:v1"
  | .checkpoint => "AEQUORA:SIGNED-CHECKPOINT:v1"

def asciiBytes (text : String) : List UInt8 := text.toList.map fun character => UInt8.ofNat character.toNat

/-- The hashed bytes: a fixed opening, then the domain and the content, each after its length. -/
def domainFrame (domain : DigestDomain) (bytes : List UInt8) : List UInt8 :=
  asciiBytes "AEQUORA:DOMAIN-DIGEST:v1\x00" ++ (leBytes 8 (asciiBytes domain.name).length ++
    (asciiBytes domain.name ++ (leBytes 8 bytes.length ++ bytes)))

section Parameters
variable {Content Digest : Type}

structure UnsignedArtifactManifest (Content Digest : Type) where
  artifactType : ArtifactType
  formatVersion : UInt16
  cryptoPolicyVersion : CryptoPolicyVersion
  tenantId : TenantId
  content : Content
  digestAlgorithm : DigestAlgorithm
  contentDigest : Digest
deriving DecidableEq

structure SignedArtifactManifest (Content Digest : Type) where
  manifest : UnsignedArtifactManifest Content Digest
  signature : SignatureEnvelope

structure ArtifactSigningContext where
  artifactType : ArtifactType
  formatVersion : UInt16
  policyVersion : CryptoPolicyVersion
  tenantId : TenantId

/-- The hash function, and the canonical encoding of each kind of value, which may fail. -/
structure Codec (Content Digest : Type) where
  blake3 : List UInt8 → Digest
  operationBytes : SemanticOperation → Option (List UInt8)
  contentBytes : Content → Option (List UInt8)
  manifestBytes : UnsignedArtifactManifest Content Digest → Option (List UInt8)
  checkpointBytes : CheckpointBody → Option (List UInt8)

structure SignatureScheme (Digest : Type) where
  validKey : PublicKeyBytes → Bool
  validSignature : SignatureBytes → Bool
  verifies : PublicKeyBytes → Digest → SignatureBytes → Bool

structure KeyProvider (Digest : Type) where
  sign : KeyPurpose → SigningKeyId → Digest → Except SigningError SignatureBytes

namespace Codec
variable (codec : Codec Content Digest)

def domainDigest (domain : DigestDomain) (bytes : List UInt8) : Digest :=
  codec.blake3 (domainFrame domain bytes)

def operationDigest (operation : SemanticOperation) : Option Digest :=
  (codec.operationBytes operation).map (codec.domainDigest .operation)

def artifactSigningDigest (manifest : UnsignedArtifactManifest Content Digest) : Option Digest :=
  (codec.manifestBytes manifest).map (codec.domainDigest .artifactManifest)

def checkpointDigest (body : CheckpointBody) : Option Digest :=
  (codec.checkpointBytes body).map (codec.domainDigest .checkpoint)

end Codec

/-- The envelope of a fresh signature. The signing time is recorded beside it. -/
def signDigest (provider : KeyProvider Digest) (purpose : KeyPurpose) (keyId : SigningKeyId)
    (signedAt : CryptoTimestamp) (digest : Digest) : Except SigningError SignatureEnvelope := do
  let signature ← provider.sign purpose keyId digest
  return {
    algorithm := .ed25519V1
    keyId
    purpose
    signedAt
    signature }

section
variable (codec : Codec Content Digest) (provider : KeyProvider Digest)

def signOperation (operation : OperationEnvelope)
    (keyId : SigningKeyId) (signedAt : CryptoTimestamp) : Except SigningError SignedOperation :=
  match codec.operationDigest (.of operation) with
  | none => .error .canonicalEncoding
  | some digest => do
    let signature ← signDigest provider .deviceOperationSigning keyId signedAt digest
    return { operation, signature }

def signArtifact (signing : ArtifactSigningContext)
    (content : Content) (keyId : SigningKeyId) (signedAt : CryptoTimestamp) :
    Except SigningError (SignedArtifactManifest Content Digest) :=
  match codec.contentBytes content with
  | none => .error .canonicalEncoding
  | some contentBytes =>
    let manifest : UnsignedArtifactManifest Content Digest :=
      { artifactType := signing.artifactType
        formatVersion := signing.formatVersion
        cryptoPolicyVersion := signing.policyVersion
        tenantId := signing.tenantId
        content
        digestAlgorithm := .blake3V1
        contentDigest := codec.domainDigest .artifactContent contentBytes }
    match codec.artifactSigningDigest manifest with
    | none => .error .canonicalEncoding
    | some digest => do
      let signature ← signDigest provider signing.artifactType.requiredPurpose keyId signedAt digest
      return { manifest, signature }

end

def CheckpointScope.purpose : CheckpointScope → KeyPurpose
  | .audit _ => .auditCheckpointSigning
  | .journal _ => .serverArtifactSigning

def signCheckpoint (codec : Codec Content Digest) (provider : KeyProvider Digest) (body : CheckpointBody)
    (keyId : SigningKeyId) (signedAt : CryptoTimestamp) : Except SigningError SignedCheckpoint :=
  match codec.checkpointDigest body with
  | none => .error .canonicalEncoding
  | some digest => do
    let signature ← signDigest provider body.scope.purpose keyId signedAt digest
    return { body, signature }

def verifyDigest (scheme : SignatureScheme Digest) (publicKey : PublicKeyBytes) (digest : Digest)
    (envelope : SignatureEnvelope) : Except VerificationError Unit := do
  require (¬(envelope.algorithm ≠ .ed25519V1 ∨
    envelope.signature.bytes.length ≠ SignatureBytes.ed25519Length)) .signatureInvalid
  require (scheme.validKey publicKey) .signatureInvalid
  require (scheme.validSignature envelope.signature) .signatureInvalid
  require (scheme.verifies publicKey digest envelope.signature) .signatureInvalid

def encoded : Option Digest → Except VerificationError Digest
  | some digest => .ok digest
  | none => .error .canonicalEncoding

variable (codec : Codec Content Digest) (scheme : SignatureScheme Digest)

def verifyOperationSignature (signed : SignedOperation) (expectedDevice : DeviceId) (registry : DeviceKeyRegistry)
    (policy : CryptoPolicy) : Except VerificationError Digest := do
  require (signed.signature.algorithm ∈ policy.allowedSignatures) .algorithmDisallowed
  require (signed.signature.purpose = .deviceOperationSigning) .purposeMismatch
  require (signed.operation.deviceId = expectedDevice) .deviceMismatch
  match registry.key signed.signature.keyId with
  | none => .error .keyUnknown
  | some record => do
    require (record.deviceId = expectedDevice) .deviceMismatch
    require (¬outsideValidity record.notBefore record.notAfter signed.signature.signedAt) .keyExpired
    require (¬revokedFor record.revokedAt record.status signed.signature.signedAt) .keyRevoked
    let digest ← encoded (codec.operationDigest (.of signed.operation))
    verifyDigest scheme record.publicKey digest signed.signature
    return digest

def verifyArtifact [DecidableEq Digest] (artifact : SignedArtifactManifest Content Digest)
    (trust : TrustContext) : Except VerificationError Unit := do
  require (artifact.manifest.tenantId = trust.tenantId) .tenantMismatch
  require (artifact.manifest.artifactType = trust.artifactType) .artifactTypeMismatch
  require (¬(artifact.manifest.artifactType.requiredPurpose ≠ trust.expectedPurpose ∨
    artifact.signature.purpose ≠ trust.expectedPurpose)) .purposeMismatch
  require (artifact.manifest.digestAlgorithm ∈ trust.policy.allowedDigests) .algorithmDisallowed
  require (artifact.signature.algorithm ∈ trust.policy.allowedSignatures) .algorithmDisallowed
  require (¬artifact.manifest.cryptoPolicyVersion > trust.policy.version) .algorithmDisallowed
  let contentDigest ← encoded ((codec.contentBytes artifact.manifest.content).map
    (codec.domainDigest .artifactContent))
  require (contentDigest = artifact.manifest.contentDigest) .digestMismatch
  match trust.registry.key artifact.signature.keyId with
  | none => .error .keyUnknown
  | some key => do
    key.verifyAuthorization trust.tenantId trust.expectedPurpose artifact.signature.signedAt
    let digest ← encoded (codec.artifactSigningDigest artifact.manifest)
    verifyDigest scheme key.publicKey digest artifact.signature

def verifyCheckpoint (checkpoint : SignedCheckpoint) (trust : TrustContext) : Except VerificationError Unit := do
  require (checkpoint.body.tenantId = trust.tenantId) .tenantMismatch
  require (checkpoint.signature.purpose = trust.expectedPurpose) .purposeMismatch
  require (checkpoint.signature.algorithm = .ed25519V1) .algorithmDisallowed
  match trust.registry.key checkpoint.signature.keyId with
  | none => .error .keyUnknown
  | some key => do
    key.verifyAuthorization checkpoint.body.tenantId trust.expectedPurpose checkpoint.signature.signedAt
    let digest ← encoded (codec.checkpointDigest checkpoint.body)
    verifyDigest scheme key.publicKey digest checkpoint.signature

end Parameters

end Aequora.Crypto
