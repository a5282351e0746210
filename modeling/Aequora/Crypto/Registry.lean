import Aequora.Base.Run
import Aequora.Crypto.SigningTime
import Mathlib.Logic.Relation

/-! Key registries: the registration of device keys, the replacement of a generation of registry
keys, and the active key that is found. -/

namespace Aequora.Crypto

open Std Aequora.Base Aequora.Protocol KeyStatus

inductive KeyLifecycleError where
  | invalidTransition

/-- The one-way key lifecycle. -/
def KeyStatus.transition (status next : KeyStatus) : Except KeyLifecycleError KeyStatus :=
  match status, next with
  | .pending, .active | .pending, .revoked | .active, .retiring | .active, .revoked
  | .retiring, .verificationOnly | .retiring, .revoked | .verificationOnly, .revoked
  | .verificationOnly, .destroyed | .revoked, .destroyed => .ok next
  | _, _ => .error .invalidTransition

section
variable (status : KeyStatus) (revokedAt : Option CryptoTimestamp)

/-- The lifecycle of a key covers a signing time. -/
def KeyStatus.Covers (signedAt : CryptoTimestamp) : Prop :=
  status.permitsVerification ∨ status = .revoked ∧ ∃ revoked ∈ revokedAt, signedAt < revoked

/-- A key that is not pending, and if it is revoked, at a known time. -/
def KeyStatus.Settled : Prop :=
  status ≠ .pending ∧ (status = .revoked → revokedAt.isSome)

end

theorem KeyStatus.covers_iff (unrevoked : revokedFor revokedAt status signedAt = false) :
    status.Covers revokedAt signedAt ↔ status.Settled revokedAt := by
  cases status <;> cases revokedAt <;> simp_all [Covers, Settled, permitsVerification, revokedFor]

/-! ## Device keys -/

namespace DeviceKeyRegistry

def register (registry : DeviceKeyRegistry) (record : DeviceKeyRecord) :
    Except VerificationError DeviceKeyRegistry := do
  require (¬(record.keyId ∈ registry.keys ∨ record.algorithm ≠ .ed25519V1 ∨ record.status = .destroyed))
    .deviceKeyUnavailable
  return { keys := registry.keys.insert record.keyId record }

def registered (records : List DeviceKeyRecord) : DeviceKeyRegistry :=
  records.foldl (fun registry record => (registry.register record).toOption.getD registry) { keys := ∅ }

end DeviceKeyRegistry

inductive RegistryError where
  | rollback | duplicateKey | invalidKey | signatureInvalid | rootUnknown | canonicalEncoding

def KeyPurpose.isSigning : KeyPurpose → Bool
  | .tenantDataEncryption | .snapshotEncryption | .exportEncryption | .replayBundleEncryption
  | .auditArchiveEncryption => false
  | _ => true

def KeyRecord.validate (record : KeyRecord) : Except RegistryError Unit :=
  require (¬(¬record.purpose.isSigning ∨ (record.notAfter.any fun last => decide (last < record.notBefore)) ∨
    (record.status = .revoked ∧ record.revokedAt.isNone) ∨
    (record.status ≠ .revoked ∧ record.revokedAt.isSome))) .invalidKey

theorem KeyRecord.covers_of_validate {record : KeyRecord} (valid : record.validate = .ok ()) :
    (revokedFor record.revokedAt record.status signedAt = false ∧
        ¬(¬record.status.permitsVerification ∧ record.status ≠ .revoked)) ↔
      record.status.Covers record.revokedAt signedAt := by
  obtain ⟨_, _, _, _, status, _, _, revokedAt⟩ := record
  simp only [validate, require_eq_ok, not_or] at valid
  cases status <;> cases revokedAt <;>
    simp_all [Covers, permitsVerification, revokedFor]

section Devices
open Presented
/-- A device signature is accepted in agreement with the key lifecycle, the rule for the keys of a
registry generation, exactly when its key is not pending and not revoked at an unknown time. -/
theorem deviceKey_lifecycle_iff (codec : Codec Content Digest) (scheme : SignatureScheme Digest)
    (records : List DeviceKeyRecord) (signed : SignedOperation) (expectedDevice : DeviceId) (policy : CryptoPolicy)
    (digest : Digest)
    (accepted : verifyOperationSignature codec scheme signed expectedDevice (.registered records) policy =
      .ok digest) :
    (∀ (key : KeyRecord) tenantId purpose signatureTime,
      key.validate = .ok () → (key.verifyAuthorization tenantId purpose signatureTime = .ok () ↔
        (key.purpose = purpose ∧ ¬(key.tenantId.any fun tenant => decide (tenant ≠ tenantId))) ∧
          outsideValidity key.notBefore key.notAfter signatureTime = false ∧
          key.status.Covers key.revokedAt signatureTime)) ∧
    ((∃ record ∈ (DeviceKeyRegistry.registered records).key signed.signature.keyId,
        record.status.Covers record.revokedAt signed.signature.signedAt) ↔
      ∃ record ∈ (DeviceKeyRegistry.registered records).key signed.signature.keyId,
        record.status.Settled record.revokedAt) := by
  constructor
  · intro _ _ _ _ valid
    rw [verifyAuthorization_eq_ok, ← KeyRecord.covers_of_validate valid]
    tauto
  · obtain ⟨_, _, found, _, unrevoked⟩ := operation_verify_iff.mp ⟨digest, accepted⟩
    simp only [Option.mem_def.mp found, Option.mem_some_iff, exists_eq_left']
    exact covers_iff unrevoked

def exampleRecord (status : KeyStatus) : DeviceKeyRecord where
  deviceId := ⟨1⟩
  keyId := exampleKeyId
  algorithm := .ed25519V1
  publicKey := exampleKey
  status
  notBefore := 0
  notAfter := none
  revokedAt := none

def exampleSigned : SignedOperation := ⟨exampleOperation, exampleEnvelope .deviceOperationSigning 100⟩

theorem deviceKey_lifecycle_active :
    ∃ record ∈ (DeviceKeyRegistry.registered [exampleRecord .active]).key exampleKeyId,
      record.status.Covers record.revokedAt 100 :=
  (deviceKey_lifecycle_iff exampleCodec (.recorded exampleCodec (exampleHistory 100))
    [exampleRecord .active] exampleSigned ⟨1⟩ .standard _ rfl).2.mpr ⟨_, rfl, by simp [Settled, exampleRecord]⟩

/-- A key of this status is registered, and its signature accepted against the lifecycle. -/
def AcceptedUncovered (status : KeyStatus) : Prop :=
  (∃ digest, verifyOperationSignature exampleCodec (.recorded exampleCodec (exampleHistory 100))
    exampleSigned ⟨1⟩ (.registered [exampleRecord status]) .standard = .ok digest) ∧
  (DeviceKeyRegistry.registered [exampleRecord status]).key exampleKeyId = some (exampleRecord status) ∧
  ¬status.Covers (exampleRecord status).revokedAt 100

theorem deviceKey_lifecycle_unsettled : AcceptedUncovered .pending ∧ AcceptedUncovered .revoked := by
  refine ⟨⟨⟨_, rfl⟩, rfl, ?_⟩, ⟨_, rfl⟩, rfl, ?_⟩
  · simp [Covers, permitsVerification]
  · simp [Covers, permitsVerification, exampleRecord]

end Devices

/-! ## Registry generations -/

abbrev KeyRegistryGeneration := UInt64

structure ManifestKey extends KeyRecord where
  createdAt : CryptoTimestamp
  compromiseTime : Option CryptoTimestamp
  revocationReason : Option String

structure KeyRegistryManifest where
  generation : KeyRegistryGeneration
  issuedAt : CryptoTimestamp
  keys : List ManifestKey
  signature : SignatureEnvelope

structure RegistryAcceptance where
  (previous accepted : KeyRegistryGeneration)
  keys : Nat

structure RegistryState extends TrustedKeyRegistry where
  highestGeneration : KeyRegistryGeneration
  roots : ExtTreeMap SigningKeyId PublicKeyBytes

/-- Every key is valid, no identity is listed twice, and no tenant has two active keys of a purpose. -/
def checkKeys : List SigningKeyId → List (Option TenantId × KeyPurpose) → List KeyRecord → Except RegistryError Unit
  | _, _, [] => .ok ()
  | identities, activePurposes, key :: rest => do
    key.validate
    require (key.keyId ∉ identities) .duplicateKey
    require (¬(key.status = .active ∧ (key.tenantId, key.purpose) ∈ activePurposes)) .invalidKey
    checkKeys (key.keyId :: identities)
      (if key.status = .active then (key.tenantId, key.purpose) :: activePurposes else activePurposes) rest

namespace RegistryState

def new (rootId : SigningKeyId) (root : PublicKeyBytes) : RegistryState where
  keys := ∅
  highestGeneration := 0
  roots := ExtTreeMap.empty.insert rootId root

variable (digest : KeyRegistryManifest → Option Digest) (scheme : SignatureScheme Digest)

section
variable (registry : RegistryState) (manifest : KeyRegistryManifest)

/-- Accepts a newer complete generation, signed by a pinned root. -/
def accept : Except RegistryError (RegistryAcceptance × RegistryState) := do
  require (¬manifest.generation ≤ registry.highestGeneration) .rollback
  require (manifest.signature.purpose = .registrySigning) .signatureInvalid
  match registry.roots[manifest.signature.keyId]?, digest manifest with
  | none, _ => .error .rootUnknown
  | some _, none => .error .canonicalEncoding
  | some root, some digest => do
    (verifyDigest scheme root digest manifest.signature).mapError fun _ => .signatureInvalid
    let keys := manifest.keys.map ManifestKey.toKeyRecord
    checkKeys [] [] keys
    let next : RegistryState :=
      { registry with
        keys := keys.foldl (fun built key => built.insert key.keyId key) ∅
        highestGeneration := manifest.generation }
    return (⟨registry.highestGeneration, manifest.generation, next.keys.size⟩, next)

def step : RegistryState :=
  match registry.accept digest scheme manifest with
  | .ok (_, next) => next
  | .error _ => registry

def taken : List RegistryState :=
  match registry.accept digest scheme manifest with
  | .ok (_, next) => [next]
  | .error _ => []

end

def generations (registry : RegistryState) (manifests : List KeyRegistryManifest) : List RegistryState :=
  Run.trace (step digest scheme) (taken digest scheme) registry manifests

end RegistryState

section ActiveKey
variable (tenantId : TenantId) (purpose : KeyPurpose) (now : CryptoTimestamp)

def candidate (key : KeyRecord) : Bool :=
  key.status == .active && key.purpose == purpose && key.tenantId.all (· == tenantId)

/-- The active key that is found where the map yields its values in this order. -/
def activeKey (values : List KeyRecord) : Except VerificationError KeyRecord :=
  match values.find? (candidate tenantId purpose) with
  | none => .error .keyUnknown
  | some key => do
    key.verifyAuthorization tenantId purpose now
    return key

def KeyRecord.Usable (key : KeyRecord) : Prop :=
  candidate tenantId purpose key ∧ key.verifyAuthorization tenantId purpose now = .ok ()

/-- No candidate stands beside a usable key. -/
def SoleUsable (keys : List KeyRecord) : Prop :=
  ∀ key ∈ keys, key.Usable tenantId purpose now → ∀ other ∈ keys, candidate tenantId purpose other → other = key

/-- A key is found exactly when one is usable, and it is the same in every order. -/
structure ActiveKeyExact (keys : List KeyRecord) : Prop where
  found_iff : ∀ values, values.Perm keys →
    ((∃ key, activeKey tenantId purpose now values = .ok key) ↔ ∃ key ∈ keys, key.Usable tenantId purpose now)
  unique : ∀ values others, values.Perm keys → others.Perm keys → ∀ key other,
    activeKey tenantId purpose now values = .ok key → activeKey tenantId purpose now others = .ok other → key = other

variable {tenantId purpose now}

theorem activeKey_eq_ok : activeKey tenantId purpose now values = .ok key ↔
      values.find? (candidate tenantId purpose) = some key ∧
        key.verifyAuthorization tenantId purpose now = .ok () := by
  unfold activeKey
  cases values.find? (candidate tenantId purpose) with
  | none => simp
  | some _ =>
    simp only [check_bind_eq_ok, Option.some.injEq]
    constructor
    · rintro ⟨authorized, ⟨⟩⟩
      exact ⟨rfl, authorized⟩
    · rintro ⟨rfl, authorized⟩
      exact ⟨authorized, rfl⟩

theorem usable_of_activeKey (order : values.Perm keys)
    (found : activeKey tenantId purpose now values = .ok key) : key ∈ keys ∧ key.Usable tenantId purpose now := by
  obtain ⟨first, authorized⟩ := activeKey_eq_ok.mp found
  exact ⟨order.mem_iff.mp (List.mem_of_find?_eq_some first), List.find?_some first, authorized⟩

theorem activeKeyExact_iff : ActiveKeyExact tenantId purpose now keys ↔ SoleUsable tenantId purpose now keys := by
  constructor
  · intro exact key held usable other listed chosen
    -- The map may yield either key first.
    have first : ∀ {next : KeyRecord}, candidate tenantId purpose next →
        (next :: keys.erase next).find? (candidate tenantId purpose) = some next :=
      fun chosen => List.find?_cons_of_pos chosen
    have order := fun {next : KeyRecord} (listed : next ∈ keys) => (List.perm_cons_erase listed).symm
    obtain ⟨found, answer⟩ := (exact.found_iff _ (order listed)).mpr ⟨key, held, usable⟩
    cases (activeKey_eq_ok.mp answer).1.symm.trans (first chosen)
    exact exact.unique _ _ (order listed) (order held) _ _ answer
      (activeKey_eq_ok.mpr ⟨first usable.1, usable.2⟩)
  · intro sole
    refine ⟨fun values order => ⟨fun ⟨key, found⟩ => ⟨key, usable_of_activeKey order found⟩, ?_⟩, ?_⟩
    · rintro ⟨key, held, usable⟩
      obtain ⟨other, found⟩ := Option.isSome_iff_exists.mp
        (List.find?_isSome.mpr ⟨key, order.mem_iff.mpr held, usable.1⟩)
      have listed := order.mem_iff.mp (List.mem_of_find?_eq_some found)
      obtain rfl := sole key held usable other listed (List.find?_some found)
      exact ⟨other, activeKey_eq_ok.mpr ⟨found, usable.2⟩⟩
    · intro _ _ order reordered key other answer answered
      obtain ⟨held, usable⟩ := usable_of_activeKey order answer
      obtain ⟨listed, chosen, _⟩ := usable_of_activeKey reordered answered
      exact (sole key held usable other listed chosen).symm

end ActiveKey

/-- The key as a later generation may list it: further on in its lifecycle, with the same public key,
and once revoked or destroyed with no authority it did not have. -/
structure KeyRecord.Succeeds (earlier later : KeyRecord) : Prop where
  reachable : Relation.ReflTransGen (fun status next => status.transition next = .ok next) earlier.status later.status
  publicKey : earlier.publicKey = later.publicKey
  retired : earlier.status = .revoked ∨ earlier.status = .destroyed → ∀ tenantId purpose signatureTime,
    later.verifyAuthorization tenantId purpose signatureTime = .ok () →
      earlier.verifyAuthorization tenantId purpose signatureTime = .ok ()

theorem KeyStatus.transition_retired {status next : KeyStatus} (retired : status = .revoked ∨ status = .destroyed)
    (step : status.transition next = .ok next) : next = .revoked ∨ next = .destroyed := by
  cases status <;> cases next <;> simp_all [transition]

theorem KeyStatus.retired_of_reachable {status later : KeyStatus}
    (reachable : Relation.ReflTransGen (fun status next => status.transition next = .ok next) status later)
    (retired : status = .revoked ∨ status = .destroyed) : later = .revoked ∨ later = .destroyed := by
  induction reachable with
  | refl => exact retired
  | tail _ step ih => exact transition_retired ih step

instance keyRecordSucceedsTrans : Trans KeyRecord.Succeeds KeyRecord.Succeeds KeyRecord.Succeeds where
  trans first second :=
    { reachable := first.reachable.trans second.reachable
      publicKey := first.publicKey.trans second.publicKey
      retired := fun retired tenantId purpose signatureTime authorized =>
        first.retired retired tenantId purpose signatureTime (second.retired
          (retired_of_reachable first.reachable retired) tenantId purpose signatureTime authorized) }

namespace RegistryState
def recordsOf (keyId : SigningKeyId) (generations : List RegistryState) : List KeyRecord :=
  generations.filterMap fun registry => registry.key keyId

section Generations
variable {registry : RegistryState}

theorem accept_newer (accepted : registry.accept digest scheme manifest = .ok (acceptance, next)) :
    registry.highestGeneration < next.highestGeneration := by
  simp only [accept, check_bind_eq_ok, require_eq_ok] at accepted
  obtain ⟨newer, _, accepted⟩ := accepted
  split at accepted
  · cases accepted
  · cases accepted
  · obtain ⟨_, accepted⟩ := check_bind_eq_ok.mp accepted
    obtain ⟨_, built⟩ := check_bind_eq_ok.mp accepted
    cases built
    exact UInt64.not_le.mp newer

theorem generations_increase (manifests : List KeyRegistryManifest) :
    ((registry.generations digest scheme manifests).Pairwise fun earlier later =>
        earlier.highestGeneration < later.highestGeneration) ∧
      ∀ next ∈ registry.generations digest scheme manifests, registry.highestGeneration < next.highestGeneration := by
  induction manifests generalizing registry with
  | nil => exact ⟨.nil, fun _ listed => by cases listed⟩
  | cons manifest _ ih =>
    unfold generations at ih ⊢
    rw [Run.trace, taken, step]
    cases accepted : registry.accept digest scheme manifest with
    | error _ => exact ih
    | ok _ =>
      have newer := accept_newer accepted
      exact ⟨.cons ih.2 ih.1, List.forall_mem_cons.mpr ⟨newer, fun next listed =>
        UInt64.lt_trans newer (ih.2 next listed)⟩⟩

end Generations

variable (digest : KeyRegistryManifest → Option Digest) (scheme : SignatureScheme Digest) (rootId : SigningKeyId)
  (root : PublicKeyBytes) (manifests : List KeyRegistryManifest)

/-- Refused manifests change nothing and generations grow. The active key is found exactly when
there is a usable one, and in every order of the map, unless a second candidate stands beside it. -/
theorem activeKey_exact_iff (tenantId : TenantId) (purpose : KeyPurpose) (now : CryptoTimestamp) :
    (((new rootId root).generations digest scheme manifests).Pairwise fun earlier later =>
        earlier.highestGeneration < later.highestGeneration) ∧
    (∀ (registry : RegistryState) manifest failure,
      registry.accept digest scheme manifest = .error failure → registry.step digest scheme manifest = registry) ∧
    (ActiveKeyExact tenantId purpose now (Run.final (step digest scheme) (new rootId root) manifests).keys.values ↔
      SoleUsable tenantId purpose now (Run.final (step digest scheme) (new rootId root) manifests).keys.values) :=
  ⟨(generations_increase manifests).1, fun registry manifest failure refused => by rw [step, refused],
    activeKeyExact_iff⟩

def exampleScheme : SignatureScheme Unit where
  validKey _ := true
  validSignature _ := true
  verifies _ _ _ := true

/-- The key of one identity, which signs server artifacts. -/
def exampleListed (uuid : BitVec 128) (tenantId : Option TenantId) (status : KeyStatus) (notBefore : CryptoTimestamp)
    (revokedAt : Option CryptoTimestamp) : KeyRecord where
  keyId := ⟨uuid⟩
  tenantId
  purpose := .serverArtifactSigning
  publicKey := Presented.exampleKey
  status
  notBefore
  notAfter := none
  revokedAt

def exampleGlobal : KeyRecord := exampleListed 1 none .active 0 none

def exampleOwn : KeyRecord := exampleListed 2 (some ⟨1⟩) .active 200 none

def exampleRevoked : KeyRecord := exampleListed 1 none .revoked 0 (some 50)

def exampleGeneration (generation : KeyRegistryGeneration) (keys : List KeyRecord) : KeyRegistryManifest where
  generation
  issuedAt := 0
  keys := keys.map fun key => ⟨key, 0, none, none⟩
  signature := Presented.exampleEnvelope .registrySigning 0

def exampleRegistries (manifests : List KeyRegistryManifest) : List RegistryState :=
  (new Presented.exampleKeyId Presented.exampleKey).generations (fun _ => some ()) exampleScheme manifests

/-- A key for all tenants is found or not, after the order in which the map yields it and a key of
the tenant that is not valid yet. -/
theorem activeKey_exact_order :
    (exampleRegistries [exampleGeneration 1 [exampleGlobal, exampleOwn]]).map (·.keys.values) =
      [[exampleGlobal, exampleOwn]] ∧
    activeKey ⟨1⟩ .serverArtifactSigning 100 [exampleGlobal, exampleOwn] = .ok exampleGlobal ∧
    activeKey ⟨1⟩ .serverArtifactSigning 100 [exampleOwn, exampleGlobal] = .error .keyExpired :=
  ⟨rfl, rfl, rfl⟩

end RegistryState

end Aequora.Crypto
