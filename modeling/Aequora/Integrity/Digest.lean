import Aequora.Base.MerkleTree
import Aequora.Protocol.Types

/-! The canonical encoding of synchronized state and its digests. A message begins with a text of
its own kind and lists its fields in fixed widths; the hash is a parameter. -/

namespace Aequora.Integrity

open Std Aequora.Base Aequora.Protocol

abbrev IntegrityDigest := Vector UInt8 32

abbrev Hash := List UInt8 → IntegrityDigest

def asciiBytes (text : String) : List UInt8 := text.toList.map fun character => UInt8.ofNat character.toNat

def entityDomain : List UInt8 := asciiBytes "AEQUORA:ENTITY:v1"
def partitionDomain : List UInt8 := asciiBytes "AEQUORA:PARTITION:v1"
def nodeDomain : List UInt8 := asciiBytes "AEQUORA:MERKLE-NODE:v1"
def bucketDomain : List UInt8 := asciiBytes "AEQUORA:BUCKET:v1"

abbrev IntegrityGeneration := UInt64
abbrev HashSchemaVersion := UInt16
abbrev IntegrityPartitionId := UInt32

inductive IntegrityError where
  | invalidPartitionCount (bucketCount : UInt32)
  | boundaryScopeMismatch
  | entityLimitExceeded (maxEntities : UInt64)
  | duplicateEntity (entity : EntityRef)
  | unknownPartition (partition : IntegrityPartitionId)
  | generationMismatch
  | scopeMismatch
  | boundaryMismatch
  | partitionLayoutMismatch
  | malformedSnapshot
deriving DecidableEq

/-- An entity as the digests cover it, whatever the database does with it. -/
structure CanonicalEntity where
  entity : EntityRef
  version : UInt64
  hashSchema : HashSchemaVersion
  payload : List UInt8
  tombstone : Bool
deriving DecidableEq

structure EntityDigest where
  entity : EntityRef
  version : UInt64
  hash : IntegrityDigest

structure PartitionDigest where
  partition : IntegrityPartitionId
  generation : IntegrityGeneration
  entityCount : Nat
  rootHash : IntegrityDigest

def lengthOf {Item : Type} (items : List Item) : Nat := min items.length u64Max

def referenceBytes (entity : EntityRef) : List UInt8 :=
  beBytes 2 entity.entityType.toNat ++ beBytes 16 entity.entityId.uuid.toNat

namespace CanonicalEntity

def message (entity : CanonicalEntity) : List UInt8 :=
  entityDomain ++ beBytes 2 entity.hashSchema.toNat ++ referenceBytes entity.entity ++
    beBytes 8 entity.version.toNat ++ [if entity.tombstone then 1 else 0] ++
    beBytes 8 (lengthOf entity.payload) ++ entity.payload

def digest (blake3 : Hash) (entity : CanonicalEntity) : EntityDigest where
  entity := entity.entity
  version := entity.version
  hash := blake3 entity.message

end CanonicalEntity

def EntityDigest.row (digest : EntityDigest) : List UInt8 :=
  referenceBytes digest.entity ++ beBytes 8 digest.version.toNat ++ digest.hash.toList

def partitionMessage (partition : IntegrityPartitionId) (generation : IntegrityGeneration)
    (entities : List EntityDigest) : List UInt8 :=
  partitionDomain ++ beBytes 8 generation.toNat ++ beBytes 4 partition.toNat ++
    beBytes 8 (lengthOf entities) ++ entities.flatMap EntityDigest.row

def partitionDigest (blake3 : Hash) (partition : IntegrityPartitionId) (generation : IntegrityGeneration)
    (entities : List EntityDigest) : PartitionDigest where
  partition
  generation
  entityCount := lengthOf entities
  rootHash := blake3 (partitionMessage partition generation entities)

def nodeMessage (pair : IntegrityDigest × IntegrityDigest) : List UInt8 :=
  nodeDomain ++ pair.1.toList ++ pair.2.toList

def nodeHash (blake3 : Hash) (left right : IntegrityDigest) : IntegrityDigest := blake3 (nodeMessage (left, right))

structure PartitionScheme where
  bucketCount : UInt32
  positive : 0 < bucketCount
  bounded : bucketCount ≤ 4096

def PartitionScheme.new (bucketCount : UInt32) : Except IntegrityError PartitionScheme :=
  if valid : 0 < bucketCount ∧ bucketCount ≤ 4096 then
    .ok { bucketCount, positive := valid.1, bounded := valid.2 }
  else .error (.invalidPartitionCount bucketCount)

def uint32OfBytes (bytes : List UInt8) : UInt32 :=
  bytes.foldl (fun value byte => value <<< 8 ||| byte.toUInt32) 0

/-- The bucket of an entity depends on its identity alone. -/
def PartitionScheme.partition (blake3 : Hash) (scheme : PartitionScheme) (entity : EntityRef) :
    IntegrityPartitionId :=
  uint32OfBytes ((blake3 (bucketDomain ++ referenceBytes entity)).toList.take 4) % scheme.bucketCount

/-! ### Messages determine what they encode -/

theorem uint16_fits (value : UInt16) : value.toNat < byteCapacity 2 := value.toNat_lt

theorem uint32_fits (value : UInt32) : value.toNat < byteCapacity 4 := value.toNat_lt

theorem uint64_fits (value : UInt64) : value.toNat < byteCapacity 8 := value.toNat_lt

theorem uuid_fits (value : BitVec 128) : value.toNat < byteCapacity 16 := value.isLt

@[simp] theorem referenceBytes_length (entity : EntityRef) : (referenceBytes entity).length = 18 := by
  simp [referenceBytes]

theorem referenceBytes_injective (same : referenceBytes first = referenceBytes second) : first = second := by
  obtain ⟨firstType, ⟨firstId⟩⟩ := first
  obtain ⟨secondType, ⟨secondId⟩⟩ := second
  obtain ⟨types, ids⟩ := List.append_inj same (by simp)
  have sameType : firstType = secondType :=
    UInt16.toNat_inj.mp (beBytes_injective (uint16_fits _) (uint16_fits _) types)
  have sameId : firstId = secondId :=
    BitVec.eq_of_toNat_eq (beBytes_injective (uuid_fits _) (uuid_fits _) ids)
  rw [sameType, sameId]

theorem CanonicalEntity.message_injective {first second : CanonicalEntity} (same : first.message = second.message) :
    first = second := by
  simp only [message, List.append_assoc] at same
  replace same := List.append_cancel_left same
  obtain ⟨schemas, same⟩ := List.append_inj same (by simp)
  obtain ⟨references, same⟩ := List.append_inj same (by simp)
  obtain ⟨versions, same⟩ := List.append_inj same (by simp)
  obtain ⟨flags, same⟩ := List.append_inj same (by simp)
  obtain ⟨_, payloads⟩ := List.append_inj same (by simp)
  have sameSchema : first.hashSchema = second.hashSchema :=
    UInt16.toNat_inj.mp (beBytes_injective (uint16_fits _) (uint16_fits _) schemas)
  have sameEntity : first.entity = second.entity := referenceBytes_injective references
  have sameVersion : first.version = second.version :=
    UInt64.toNat_inj.mp (beBytes_injective (uint64_fits _) (uint64_fits _) versions)
  have sameTombstone : first.tombstone = second.tombstone := by
    cases left : first.tombstone <;> cases right : second.tombstone <;> simp [left, right] at flags ⊢
  obtain ⟨_, _, _, _, _⟩ := first
  simp only at sameSchema sameEntity sameVersion sameTombstone payloads
  rw [sameSchema, sameEntity, sameVersion, sameTombstone, payloads]

theorem EntityDigest.row_length (digest : EntityDigest) : digest.row.length = 58 := by
  simp [row]

theorem EntityDigest.row_injective (first second : EntityDigest) (same : first.row = second.row) : first = second := by
  simp only [row, List.append_assoc] at same
  obtain ⟨references, same⟩ := List.append_inj same (by simp)
  obtain ⟨versions, hashes⟩ := List.append_inj same (by simp)
  have sameEntity : first.entity = second.entity := referenceBytes_injective references
  have sameVersion : first.version = second.version :=
    UInt64.toNat_inj.mp (beBytes_injective (uint64_fits _) (uint64_fits _) versions)
  have sameHash : first.hash = second.hash := Vector.toList_inj.mp hashes
  obtain ⟨_, _, _⟩ := first
  simp only at sameEntity sameVersion sameHash
  rw [sameEntity, sameVersion, sameHash]

theorem partitionMessage_injective (same : partitionMessage first firstGeneration firstEntities =
      partitionMessage second secondGeneration secondEntities) :
    first = second ∧ firstGeneration = secondGeneration ∧ firstEntities = secondEntities := by
  simp only [partitionMessage, List.append_assoc] at same
  replace same := List.append_cancel_left same
  obtain ⟨generations, same⟩ := List.append_inj same (by simp)
  obtain ⟨partitions, same⟩ := List.append_inj same (by simp)
  obtain ⟨_, entities⟩ := List.append_inj same (by simp)
  refine ⟨?_, ?_, ?_⟩
  · exact UInt32.toNat_inj.mp (beBytes_injective (uint32_fits _) (uint32_fits _) partitions)
  · exact UInt64.toNat_inj.mp (beBytes_injective (uint64_fits _) (uint64_fits _) generations)
  · exact rows_injective (by decide) EntityDigest.row_length EntityDigest.row_injective entities

theorem nodeMessage_injective (same : nodeMessage first = nodeMessage second) : first = second := by
  simp only [nodeMessage, List.append_assoc] at same
  obtain ⟨left, right⟩ := List.append_inj (List.append_cancel_left same) (by simp)
  exact Prod.ext (Vector.toList_inj.mp left) (Vector.toList_inj.mp right)

theorem partitionMessage_ne_nodeMessage (partition : IntegrityPartitionId) (generation : IntegrityGeneration)
    (entities : List EntityDigest) (pair : IntegrityDigest × IntegrityDigest) :
    partitionMessage partition generation entities ≠ nodeMessage pair := by
  intro same
  have ninth := congrArg (fun bytes : List UInt8 => bytes[8]?) same
  have inPartition : (partitionMessage partition generation entities)[8]? = some 80 := by
    simp only [partitionMessage, List.append_assoc]
    rw [List.getElem?_append_left (by decide)]
    rfl
  have inNode : (nodeMessage pair)[8]? = some 77 := by
    simp only [nodeMessage, List.append_assoc]
    rw [List.getElem?_append_left (by decide)]
    rfl
  simp only [inPartition, inNode] at ninth
  cases ninth

end Aequora.Integrity
