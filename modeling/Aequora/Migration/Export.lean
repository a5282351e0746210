import Aequora.Base.MerkleTree
import Aequora.Replay.Evidence

/-! Canonical exports. A chunk is sealed by the digest of its index and records, and the root digest
seals the header, the record count and the digests of the chunks. -/

namespace Aequora.Migration

open Aequora.Base

structure ExportLimits where
  (maxChunks maxRecords maxRecordsPerChunk : Nat)

structure ExportHeader (Digest : Type) where
  formatVersion : UInt32
  (aequoraVersion sourceAdapter : String)
  sourceSchemaVersion : UInt32
  canonicalSchemaDigest : Digest

structure ExportChunk (Record Digest : Type) where
  index : Nat
  records : List Record
  digest : Digest

structure CanonicalExport (Record Digest : Type) where
  header : ExportHeader Digest
  chunks : List (ExportChunk Record Digest)
  recordCount : Nat
  rootDigest : Digest

def CanonicalExport.records (artifact : CanonicalExport Record Digest) : List Record :=
  artifact.chunks.flatMap ExportChunk.records

inductive ExportError (SchemaError : Type) where
  | blankSourceAdapter
  | zeroSourceSchemaVersion
  | zeroChunkSize
  | countOverflow
  | unsupportedFormat (version : UInt32)
  | schemaDigestMismatch
  | chunkLimit
  | nonContiguousChunk (expected actual : Nat)
  | recordsPerChunkLimit
  | recordLimit
  | chunkDigestMismatch (index : Nat)
  | recordCountMismatch
  | rootDigestMismatch
  | schema (error : SchemaError)
  | serialize

/-- The records of a slice in consecutive parts of the given size. -/
def slices (size : Nat) : Nat → List Record → List (List Record)
  | 0, _ | _, [] => []
  | rounds + 1, records => records.take size :: slices size rounds (records.drop size)

def exportFormatVersion : UInt32 := 1

/-- What an export is made with: postcard, BLAKE3, the check of a record and the version of the crate. -/
structure ExportCodec (Registry Record Digest SchemaError : Type) where
  registryBytes : Registry → Option (List UInt8)
  chunkBytes : Nat → List Record → Option (List UInt8)
  rootBytes : ExportHeader Digest → Nat → List Digest → Option (List UInt8)
  blake3 : List UInt8 → Digest
  validate : Registry → Record → Except SchemaError Unit
  version : String

namespace ExportCodec
variable (codec : ExportCodec Registry Record Digest SchemaError)

def hashed : Option (List UInt8) → Except (ExportError SchemaError) Digest
  | none => .error .serialize
  | some bytes => .ok (codec.blake3 bytes)

def chunkDigest (index : Nat) (records : List Record) : Except (ExportError SchemaError) Digest :=
  codec.hashed (codec.chunkBytes index records)

def rootDigest (header : ExportHeader Digest) (recordCount : Nat) (chunks : List (ExportChunk Record Digest)) :
    Except (ExportError SchemaError) Digest :=
  codec.hashed (codec.rootBytes header recordCount (chunks.map ExportChunk.digest))

def checkRecord (registry : Registry) (record : Record) : Except (ExportError SchemaError) Unit :=
  (codec.validate registry record).mapError .schema

def toU64 (count : Nat) : Except (ExportError SchemaError) Nat :=
  if count ≤ u64Max then .ok count else .error .countOverflow

def buildChunks : Nat → List (List Record) → Except (ExportError SchemaError) (List (ExportChunk Record Digest))
  | _, [] => .ok []
  | position, records :: rest => do
    let index ← toU64 position
    let digest ← codec.chunkDigest index records
    let chunks ← buildChunks (position + 1) rest
    return { index, records, digest } :: chunks

def build (registry : Registry) (sourceAdapter : String) (sourceSchemaVersion : UInt32) (records : List Record)
    (recordsPerChunk : Nat) : Except (ExportError SchemaError) (CanonicalExport Record Digest) := do
  require (Replay.trim sourceAdapter ≠ []) .blankSourceAdapter
  require (sourceSchemaVersion ≠ 0) .zeroSourceSchemaVersion
  require (recordsPerChunk ≠ 0) .zeroChunkSize
  checkAll (codec.checkRecord registry) records
  let canonicalSchemaDigest ← codec.hashed (codec.registryBytes registry)
  let header := { formatVersion := exportFormatVersion, aequoraVersion := codec.version, sourceAdapter
                  sourceSchemaVersion, canonicalSchemaDigest }
  let chunks ← codec.buildChunks 0 (slices recordsPerChunk records.length records)
  let recordCount ← toU64 records.length
  let rootDigest ← codec.rootDigest header recordCount chunks
  return { header, chunks, recordCount, rootDigest }

section Verify
variable [DecidableEq Digest] (registry : Registry) (limits : ExportLimits)

/-- The loop over the chunks, with the expected index and the number of records before. A `usize` has 64 bits. -/
def verifyChunks : Nat → Nat → List (ExportChunk Record Digest) → Except (ExportError SchemaError) Nat
  | _, count, [] => .ok count
  | position, before, chunk :: rest => do
    let expected ← toU64 position
    require (chunk.index = expected) (.nonContiguousChunk expected chunk.index)
    require (¬chunk.records.length > limits.maxRecordsPerChunk) .recordsPerChunkLimit
    let count ← toU64 (before + chunk.records.length)
    require (¬count > limits.maxRecords) .recordLimit
    let digest ← codec.chunkDigest chunk.index chunk.records
    require (chunk.digest = digest) (.chunkDigestMismatch chunk.index)
    checkAll (codec.checkRecord registry) chunk.records
    verifyChunks (position + 1) count rest

def verify (artifact : CanonicalExport Record Digest) :
    Except (ExportError SchemaError) (CanonicalExport Record Digest) := do
  require (artifact.header.formatVersion = exportFormatVersion) (.unsupportedFormat artifact.header.formatVersion)
  let schemaDigest ← codec.hashed (codec.registryBytes registry)
  require (artifact.header.canonicalSchemaDigest = schemaDigest) .schemaDigestMismatch
  require (¬artifact.chunks.length > limits.maxChunks) .chunkLimit
  let count ← codec.verifyChunks registry limits 0 0 artifact.chunks
  require (count = artifact.recordCount) .recordCountMismatch
  let root ← codec.rootDigest artifact.header artifact.recordCount artifact.chunks
  require (artifact.rootDigest = root) .rootDigestMismatch
  return artifact

end Verify

/-- The digest of a chunk is that of its contents. -/
def Sealed (chunk : ExportChunk Record Digest) : Prop :=
  codec.chunkDigest chunk.index chunk.records = .ok chunk.digest

/-- Different contents have different encodings, and different encodings different digests. -/
structure Injective : Prop where
  blake3 : Function.Injective codec.blake3
  chunk : ∀ index records other others bytes, codec.chunkBytes index records = some bytes →
    codec.chunkBytes other others = some bytes → index = other ∧ records = others
  root : ∀ header count digests header' count' digests' bytes, codec.rootBytes header count digests = some bytes →
    codec.rootBytes header' count' digests' = some bytes → header = header' ∧ count = count' ∧ digests = digests'

/-- The limits are at least the counts of the artifact. -/
structure Covers (limits : ExportLimits) (artifact : CanonicalExport Record Digest) : Prop where
  chunks : artifact.chunks.length ≤ limits.maxChunks
  records : artifact.recordCount ≤ limits.maxRecords
  each : ∀ chunk ∈ artifact.chunks, chunk.records.length ≤ limits.maxRecordsPerChunk

theorem slices_length : ∀ part ∈ slices size rounds records, part.length ≤ size := by
  fun_induction slices size rounds records with
  | case1 | case2 => simp
  | case3 _ _ _ ih => exact List.forall_mem_cons.mpr ⟨List.length_take_le _ _, ih⟩

theorem slices_flatten (positive : size ≠ 0) (enough : records.length ≤ rounds) :
    (slices size rounds records).flatten = records := by
  induction rounds generalizing records with
  | zero => simp [List.eq_nil_of_length_eq_zero (Nat.le_zero.mp enough), slices]
  | succ rounds ih =>
    cases records with
    | nil => rfl
    | cons first rest =>
      rw [slices, List.flatten_cons, ih (by simp at enough ⊢; omega), List.take_append_drop]
      simp

variable {codec}

theorem toU64_eq_ok : (toU64 count : Except (ExportError SchemaError) Nat) = .ok value ↔ count ≤ u64Max ∧ count = value := by
  unfold toU64
  split <;> simp_all

theorem hashed_same (injective : codec.Injective) (first : codec.hashed left = .ok digest)
    (second : codec.hashed right = .ok digest) : ∃ bytes, left = some bytes ∧ right = some bytes := by
  cases left with
  | none => cases first
  | some bytes =>
    cases right with
    | none => cases second
    | some _ => exact ⟨bytes, rfl, congrArg some (injective.blake3 (Except.ok.inj (second.trans first.symm)))⟩

theorem digest_injOn (injective : codec.Injective) : Set.InjOn ExportChunk.digest {chunk | codec.Sealed chunk} := by
  rintro chunk (here : codec.Sealed chunk) other (there : codec.Sealed other) same
  rw [Sealed, ← same] at there
  obtain ⟨_, encoded, again⟩ := hashed_same injective here there
  obtain ⟨index, records⟩ := injective.chunk _ _ _ _ _ encoded again
  cases chunk
  cases other
  cases index
  cases records
  cases same
  rfl

theorem buildChunks_cons (built : codec.buildChunks position (part :: parts) = .ok chunks) : position ≤ u64Max ∧
    ∃ digest rest, codec.Sealed ⟨position, part, digest⟩ ∧ codec.buildChunks (position + 1) parts = .ok rest ∧
      chunks = ⟨position, part, digest⟩ :: rest := by
  simp only [buildChunks, bind_eq_ok_iff] at built
  obtain ⟨_, bounded, digest, sealed, rest, built, made⟩ := built
  obtain ⟨small, rfl⟩ := toU64_eq_ok.mp bounded
  exact ⟨small, digest, rest, sealed, built, (Except.ok.inj made).symm⟩

theorem buildChunks_records (built : codec.buildChunks position parts = .ok chunks) :
    chunks.map ExportChunk.records = parts := by
  induction parts generalizing position chunks with
  | nil =>
    cases built
    rfl
  | cons _ _ ih =>
    obtain ⟨_, _, _, _, rest, rfl⟩ := buildChunks_cons built
    rw [List.map_cons, ih rest]

theorem build_shape (built : codec.build registry sourceAdapter sourceSchemaVersion records perChunk = .ok artifact) :
    artifact.recordCount = records.length ∧ ∀ chunk ∈ artifact.chunks, chunk.records.length ≤ perChunk := by
  simp only [build, check_bind_eq_ok] at built
  obtain ⟨_, _, _, _, built⟩ := built
  simp only [bind_eq_ok_iff] at built
  obtain ⟨_, _, _, made, _, bounded, _, _, result⟩ := built
  cases result
  exact ⟨(toU64_eq_ok.mp bounded).2.symm, List.forall_mem_map.mp (buildChunks_records made ▸ slices_length)⟩

variable [DecidableEq Digest]

theorem verifyChunks_cons : codec.verifyChunks registry limits position before (chunk :: rest) = .ok total ↔
    (position ≤ u64Max ∧ chunk.index = position ∧ chunk.records.length ≤ limits.maxRecordsPerChunk ∧
      before + chunk.records.length ≤ u64Max ∧ before + chunk.records.length ≤ limits.maxRecords ∧
      codec.Sealed chunk ∧ (∀ record ∈ chunk.records, codec.checkRecord registry record = .ok ())) ∧
    codec.verifyChunks registry limits (position + 1) (before + chunk.records.length) rest = .ok total := by
  simp only [verifyChunks, check_bind_eq_ok, require_eq_ok, @bind_eq_ok_iff _ Nat, @bind_eq_ok_iff _ Digest,
    toU64_eq_ok, checkAll_eq_ok, Nat.not_lt, gt_iff_lt, and_assoc, exists_eq_left', exists_and_left]
  grind [Sealed]

theorem buildChunks_verify (built : codec.buildChunks position parts = .ok chunks)
    (valid : ∀ record ∈ parts.flatten, codec.checkRecord registry record = .ok ())
    (each : ∀ chunk ∈ chunks, chunk.records.length ≤ limits.maxRecordsPerChunk)
    (counted : before + parts.flatten.length = total) (fits : total ≤ u64Max) (few : total ≤ limits.maxRecords) :
    codec.verifyChunks registry limits position before chunks = .ok total := by
  induction parts generalizing position before chunks with
  | nil =>
    cases built
    exact congrArg Except.ok counted
  | cons part _ ih =>
    obtain ⟨small, _, _, sealed, rest, rfl⟩ := buildChunks_cons built
    rw [List.flatten_cons, List.length_append, ← Nat.add_assoc] at counted
    rw [List.flatten_cons, List.forall_mem_append] at valid
    rw [List.forall_mem_cons] at each
    have within : before + part.length ≤ total := counted ▸ Nat.le_add_right _ _
    refine verifyChunks_cons.mpr ⟨?_, ih rest valid.2 each.2 counted⟩
    exact ⟨small, rfl, each.1, within.trans fits, within.trans few, sealed, valid.1⟩

theorem verifyChunks_sealed (verified : codec.verifyChunks registry limits position before chunks = .ok total) :
    ∀ chunk ∈ chunks, codec.Sealed chunk := by
  induction chunks generalizing position before with
  | nil => simp
  | cons _ _ ih =>
    obtain ⟨⟨_, _, _, _, _, sealed, _⟩, verified⟩ := verifyChunks_cons.mp verified
    exact List.forall_mem_cons.mpr ⟨sealed, ih verified⟩

theorem verify_eq_ok : codec.verify registry limits artifact = .ok result ↔
    artifact.header.formatVersion = exportFormatVersion ∧
    codec.hashed (codec.registryBytes registry) = .ok artifact.header.canonicalSchemaDigest ∧
    artifact.chunks.length ≤ limits.maxChunks ∧
    codec.verifyChunks registry limits 0 0 artifact.chunks = .ok artifact.recordCount ∧
    codec.rootDigest artifact.header artifact.recordCount artifact.chunks = .ok artifact.rootDigest ∧
    artifact = result := by
  simp only [verify, check_bind_eq_ok, require_eq_ok, @bind_eq_ok_iff _ Nat, @bind_eq_ok_iff _ Digest, pure,
    Except.pure, Except.ok.injEq]
  grind

theorem build_verified (built : codec.build registry sourceAdapter sourceSchemaVersion records perChunk = .ok artifact)
    (covers : Covers limits artifact) :
    codec.verify registry limits artifact = .ok artifact ∧ artifact.records = records := by
  simp only [build, check_bind_eq_ok, require_eq_ok, checkAll_eq_ok] at built
  obtain ⟨_, _, positive, valid, built⟩ := built
  simp only [bind_eq_ok_iff] at built
  obtain ⟨_, schema, chunks, made, _, bounded, _, sealed, result⟩ := built
  obtain ⟨fits, rfl⟩ := toU64_eq_ok.mp bounded
  cases result
  have whole := slices_flatten positive (Nat.le_refl records.length)
  have verified := buildChunks_verify made (whole.symm ▸ valid) covers.each (by rw [whole, Nat.zero_add]) fits
    covers.records
  refine ⟨verify_eq_ok.mpr ⟨rfl, schema, covers.chunks, verified, sealed, rfl⟩, ?_⟩
  rw [CanonicalExport.records, List.flatMap_def, buildChunks_records made, whole]

/-- An export is verified as it was built, and yields the records in order; verified exports with one root digest
agree in the header and in every chunk. -/
theorem export_exact (codec : ExportCodec Registry Record Digest SchemaError) :
    (∀ registry sourceAdapter sourceSchemaVersion records recordsPerChunk artifact,
      codec.build registry sourceAdapter sourceSchemaVersion records recordsPerChunk = .ok artifact →
      ∀ limits, Covers limits artifact →
        codec.verify registry limits artifact = .ok artifact ∧ artifact.records = records) ∧
    (codec.Injective → ∀ registry limits first verified registry' limits' second verified',
      codec.verify registry limits first = .ok verified → codec.verify registry' limits' second = .ok verified' →
      first.rootDigest = second.rootDigest →
        first.header = second.header ∧
        first.chunks.map ExportChunk.records = second.chunks.map ExportChunk.records ∧
        verified.records = verified'.records) := by
  refine ⟨fun _ _ _ _ _ _ built _ covers => build_verified built covers, ?_⟩
  intro injective registry limits first _ registry' limits' second _ left right same
  obtain ⟨_, _, _, chunks, root, rfl⟩ := verify_eq_ok.mp left
  obtain ⟨_, _, _, chunks', root', rfl⟩ := verify_eq_ok.mp right
  obtain ⟨_, encoded, again⟩ := hashed_same injective root (same ▸ root')
  obtain ⟨header, -, digests⟩ := injective.root _ _ _ _ _ _ _ encoded again
  have equal := MerkleTree.map_injOn (digest_injOn injective) (verifyChunks_sealed chunks)
    (verifyChunks_sealed chunks') digests
  exact ⟨header, by rw [equal], by rw [CanonicalExport.records, CanonicalExport.records, equal]⟩

/-! ### Export of a paged source -/

end ExportCodec

inductive MigrationStoreErrorKind where
  | transient
  | permanent

structure MigrationStoreError where
  kind : MigrationStoreErrorKind
  message : String

inductive MigrationError (SchemaError : Type) where
  | store (error : MigrationStoreError)
  | «export» (error : ExportError SchemaError)

structure CanonicalRecordPage (Record : Type) where
  records : List Record
  nextOffset : Nat
  hasMore : Bool

/-- What a source answers to its first call, its second call and so on. -/
abbrev CanonicalRecordSource (Record : Type) := Nat → Except MigrationStoreError (CanonicalRecordPage Record)

/-- The paging loop, with the calls made so far. A page that is not the last has a record, so that there are at most
`maxRecords + 1` rounds. -/
def readPages (limits : ExportLimits) (source : CanonicalRecordSource Record) :
    Nat → Nat → Nat → List Record → Except (MigrationError SchemaError) (List Record)
  | 0, _, _, _ => .error (.export .recordLimit)
  | rounds + 1, call, offset, before => do
    let page ← (source call).mapError .store
    require (¬page.records.length > limits.maxRecordsPerChunk)
      (.store ⟨.permanent, "canonical source exceeded requested page size"⟩)
    require (¬(page.hasMore ∧ (page.records = [] ∨ page.nextOffset ≤ offset)))
      (.store ⟨.permanent, "canonical source did not make monotonic paging progress"⟩)
    let records := before ++ page.records
    require (¬records.length > limits.maxRecords) (.export .recordLimit)
    if page.hasMore then readPages limits source rounds (call + 1) page.nextOffset records else return records

/-- The pages that a source returns from a call to its last page. -/
inductive Returned (source : CanonicalRecordSource Record) : Nat → List (CanonicalRecordPage Record) → Prop
  | last : source call = .ok page → ¬page.hasMore → Returned source call [page]
  | more : source call = .ok page → page.hasMore → Returned source (call + 1) pages → Returned source call (page :: pages)

theorem mapError_eq_ok {result : Except ε α} : result.mapError wrap = .ok value ↔ result = .ok value := by
  cases result <;> simp [Except.mapError]

theorem readPages_returned {source : CanonicalRecordSource Record}
    (read : (readPages limits source rounds call offset before : Except (MigrationError SchemaError) _) = .ok records) :
    records.length ≤ limits.maxRecords ∧
    ∃ pages, Returned source call pages ∧ records = before ++ pages.flatMap CanonicalRecordPage.records := by
  induction rounds generalizing call offset before with
  | zero => cases read
  | succ rounds ih =>
    simp only [readPages, bind_eq_ok_iff, mapError_eq_ok] at read
    obtain ⟨page, answer, _, _, _, _, _, few, read⟩ := read
    split at read
    next more =>
      obtain ⟨few, pages, returned, rfl⟩ := ih read
      exact ⟨few, page :: pages, .more answer more returned, by simp⟩
    next last =>
      cases read
      exact ⟨Nat.not_lt.mp (require_eq_ok.mp few), [page], .last answer last, by simp⟩

namespace ExportCodec
variable (codec : ExportCodec Registry Record Digest SchemaError) (source : CanonicalRecordSource Record)
  (registry : Registry) (sourceAdapter : String) (sourceSchemaVersion : UInt32) (limits : ExportLimits)

def exportSource : Except (MigrationError SchemaError) (CanonicalExport Record Digest) := do
  require (limits.maxRecordsPerChunk ≠ 0) (.export .zeroChunkSize)
  let records ← readPages limits source (limits.maxRecords + 1) 0 0 []
  (codec.build registry sourceAdapter sourceSchemaVersion records limits.maxRecordsPerChunk).mapError .export

end ExportCodec

end Aequora.Migration
