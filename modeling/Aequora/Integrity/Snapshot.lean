import Aequora.Base.Check
import Aequora.Base.SortedTable
import Aequora.Integrity.Digest

/-! Digest snapshots: entities sorted into buckets, one leaf for each bucket, and a hash tree over
the leaves. -/

namespace Aequora.Integrity

open Std Aequora.Base Aequora.Protocol ExtTreeMap

/-- The root of a tree at one boundary, with what it covers. -/
structure IntegrityManifest where
  scope : SyncScopeId
  generation : IntegrityGeneration
  boundary : Cursor
  rootHash : IntegrityDigest
  partitionCount : UInt32
  entityCount : Nat

structure IntegritySnapshot where
  manifest : IntegrityManifest
  partitions : List PartitionDigest

abbrev ProofStep := MerkleTree.Step IntegrityDigest

structure MerkleProof where
  partition : PartitionDigest
  siblings : List ProofStep

inductive IntegrityComparison where
  | match
  | mismatch (mismatchingPartitions : List IntegrityPartitionId)

abbrev CanonicalTable := ExtTreeMap EntityRef CanonicalEntity

/-- Take in one more entity. The limit is checked before the identity. -/
def collect (maxEntities : UInt64) (canonical : CanonicalTable) (entity : CanonicalEntity) :
    Except IntegrityError CanonicalTable :=
  if canonical.size = maxEntities.toNat then .error (.entityLimitExceeded maxEntities)
  else if entity.entity ∈ canonical then .error (.duplicateEntity entity.entity)
  else .ok (canonical.insert entity.entity entity)

section Hashing
variable (blake3 : Hash)

def merkleRoot (leaves : List IntegrityDigest) : Option IntegrityDigest := MerkleTree.root (nodeHash blake3) leaves

/-- Entities in the order of their identities, each appended to its bucket. -/
def fillBuckets (scheme : PartitionScheme) (entities : List CanonicalEntity) :
    ExtTreeMap IntegrityPartitionId (List EntityDigest) :=
  entities.foldl (fun buckets entity =>
    buckets.insert (scheme.partition blake3 entity.entity)
      ((buckets[scheme.partition blake3 entity.entity]?).getD [] ++ [entity.digest blake3])) ∅

/-- The leaves of all buckets. -/
def partitionLeaves (generation : IntegrityGeneration) (scheme : PartitionScheme) (canonical : CanonicalTable) :
    List PartitionDigest :=
  let buckets := fillBuckets blake3 scheme (listing canonical)
  (List.range scheme.bucketCount.toNat).map fun index =>
    partitionDigest blake3 (UInt32.ofNat index) generation ((buckets[UInt32.ofNat index]?).getD [])

namespace IntegritySnapshot

section
variable (scope : SyncScopeId) (boundary : Cursor) (generation : IntegrityGeneration) (scheme : PartitionScheme)

/-- The snapshot of a table of entities. There is a leaf, so there is a root. -/
def assemble (canonical : CanonicalTable) : IntegritySnapshot :=
  let partitions := partitionLeaves blake3 generation scheme canonical
  { manifest :=
      { scope
        generation
        boundary
        rootHash := (merkleRoot blake3 (partitions.map PartitionDigest.rootHash)).getD (Vector.replicate 32 0)
        partitionCount := scheme.bucketCount
        entityCount := min canonical.size u64Max }
    partitions }

def build (entities : List CanonicalEntity) (maxEntities : UInt64) :
    Except IntegrityError IntegritySnapshot :=
  if boundary.scope ≠ scope then .error .boundaryScopeMismatch
  else do
    let canonical ← entities.foldlM (collect maxEntities) ∅
    return assemble blake3 scope boundary generation scheme canonical

end

section
variable (snapshot : IntegritySnapshot)

def leafHashes : List IntegrityDigest :=
  snapshot.partitions.map PartitionDigest.rootHash

def proof (partition : IntegrityPartitionId) : Except IntegrityError MerkleProof :=
  match snapshot.partitions[partition.toNat]? with
  | none => .error (.unknownPartition partition)
  | some leaf =>
    .ok { partition := leaf
          siblings := MerkleTree.path (nodeHash blake3) snapshot.leafHashes partition.toNat }

/-- Counts, order, generation and root agree with the manifest; the counts are added in 64 bits. -/
def verifyStructure : Except IntegrityError Unit :=
  require (snapshot.manifest.partitionCount ≠ 0 ∧
    snapshot.partitions.length = snapshot.manifest.partitionCount.toNat ∧
    (∀ entry ∈ snapshot.partitions.zipIdx,
      entry.1.partition.toNat = entry.2 ∧ entry.1.generation = snapshot.manifest.generation) ∧
    (snapshot.partitions.map PartitionDigest.entityCount).foldr (· + ·) 0 % (u64Max + 1) =
      snapshot.manifest.entityCount ∧
    merkleRoot blake3 snapshot.leafHashes = some snapshot.manifest.rootHash) .malformedSnapshot

end

end IntegritySnapshot

def MerkleProof.verifies (proof : MerkleProof) (expectedRoot : IntegrityDigest) : Bool :=
  decide (proof.siblings.foldl (MerkleTree.climb (nodeHash blake3)) proof.partition.rootHash = expectedRoot)

end Hashing

def ensureCompatible (left right : IntegrityManifest) : Except IntegrityError Unit := do
  require (left.generation = right.generation) .generationMismatch
  require (left.scope = right.scope) .scopeMismatch
  require (left.boundary = right.boundary) .boundaryMismatch
  require (left.partitionCount = right.partitionCount) .partitionLayoutMismatch

/-- Roots first; leaf by leaf only if they differ. -/
def IntegritySnapshot.compare (own other : IntegritySnapshot) : Except IntegrityError IntegrityComparison := do
  ensureCompatible own.manifest other.manifest
  if own.manifest.rootHash = other.manifest.rootHash then return .match
  else
    return .mismatch ((own.partitions.zip other.partitions).filterMap fun leaves =>
      if leaves.1.rootHash ≠ leaves.2.rootHash then some leaves.1.partition else none)

/-! ### Collected entities -/

section Collected
variable {maxEntities : UInt64} {entities : List CanonicalEntity}

theorem collect_eq_ok (taken : collect maxEntities canonical entity = .ok next) :
    canonical.size ≠ maxEntities.toNat ∧ entity.entity ∉ canonical ∧
      next = canonical.insert entity.entity entity := by
  unfold collect at taken
  split at taken
  · cases taken
  · rename_i room
    split at taken
    · cases taken
    · rename_i fresh
      exact ⟨room, fresh, (Except.ok.inj taken).symm⟩

theorem collected (taken : entities.foldlM (collect maxEntities) start = .ok canonical)
    (bounded : start.size ≤ maxEntities.toNat) :
    canonical = replayFrom CanonicalEntity.entity id start entities ∧ canonical.size ≤ maxEntities.toNat := by
  induction entities generalizing start with
  | nil =>
    cases taken
    exact ⟨rfl, bounded⟩
  | cons _ _ ih =>
    rw [List.foldlM_cons, bind_eq_ok_iff] at taken
    obtain ⟨_, first, later⟩ := taken
    obtain ⟨_, _, rfl⟩ := collect_eq_ok first
    refine ih later ?_
    rw [size_insert]
    split <;> omega

/-- Entities of distinct identities are collected up to the limit, in any order. -/
theorem foldlM_collect_of_distinct (distinct : (entities.map CanonicalEntity.entity).Nodup)
    (fresh : ∀ entity ∈ entities, entity.entity ∉ start) (bounded : start.size ≤ maxEntities.toNat) :
    entities.foldlM (collect maxEntities) start =
      if start.size + entities.length ≤ maxEntities.toNat then
        .ok (replayFrom CanonicalEntity.entity id start entities)
      else .error (.entityLimitExceeded maxEntities) := by
  induction entities generalizing start with
  | nil => exact (if_pos bounded).symm
  | cons entity rest ih =>
    rw [List.map_cons, List.nodup_cons] at distinct
    rw [List.forall_mem_cons] at fresh
    rw [List.foldlM_cons, List.length_cons]
    by_cases full : start.size = maxEntities.toNat
    · have tooMany : ¬start.size + (rest.length + 1) ≤ maxEntities.toNat := by omega
      rw [if_neg tooMany]
      simp only [collect, if_pos full]
      rfl
    · have size : (start.insert entity.entity entity).size = start.size + 1 := by
        rw [size_insert]
        exact if_neg (mt mem_iff_contains.mpr fresh.1)
      have others : ∀ other ∈ rest, other.entity ∉ start.insert entity.entity entity := by
        intro other listed member
        rcases mem_insert.mp member with same | before
        · rw [LawfulEqOrd.compare_eq_iff_eq.mp same] at distinct
          exact distinct.1 (List.mem_map_of_mem listed)
        · exact fresh.2 other listed before
      have taken : collect maxEntities start entity = .ok (start.insert entity.entity entity) := by
        simp only [collect, if_neg full, if_neg fresh.1]
      rw [taken]
      change rest.foldlM (collect maxEntities) (start.insert entity.entity entity) = _
      rw [ih distinct.2 others (by omega), size, Nat.add_right_comm, Nat.add_assoc]
      rfl

end Collected

/-! ### Leaves and root of a snapshot -/

section Leaves
variable (blake3 : Hash) (scheme : PartitionScheme) (generation : IntegrityGeneration) (canonical : CanonicalTable)

def bucketOf (partition : IntegrityPartitionId) : List CanonicalEntity :=
  (listing canonical).filter fun entity => scheme.partition blake3 entity.entity = partition

def leafOf (partition : IntegrityPartitionId) : PartitionDigest :=
  partitionDigest blake3 partition generation
    ((bucketOf blake3 scheme canonical partition).map (CanonicalEntity.digest blake3))

theorem fillBuckets_getD (entities : List CanonicalEntity) (partition : IntegrityPartitionId) :
    ((fillBuckets blake3 scheme entities)[partition]?).getD [] =
      (entities.filter fun entity => scheme.partition blake3 entity.entity = partition).map
        (CanonicalEntity.digest blake3) := by
  induction entities using List.reverseRecOn with
  | nil => simp [fillBuckets]
  | append_singleton _ last ih =>
    unfold fillBuckets at ih ⊢
    rw [List.foldl_append, List.foldl_cons, List.foldl_nil, lookup_insert, List.filter_append, List.map_append, ← ih]
    by_cases mine : scheme.partition blake3 last.entity = partition
    · simp [mine]
    · simp [mine]

theorem partitionLeaves_eq : partitionLeaves blake3 generation scheme canonical =
      (List.range scheme.bucketCount.toNat).map fun index =>
        leafOf blake3 scheme generation canonical (UInt32.ofNat index) := by
  unfold partitionLeaves leafOf bucketOf
  simp only [fillBuckets_getD]

theorem bucketCount_pos : 0 < scheme.bucketCount.toNat := scheme.positive

theorem partition_lt (entity : EntityRef) : (scheme.partition blake3 entity).toNat < scheme.bucketCount.toNat := by
  unfold PartitionScheme.partition
  rw [UInt32.toNat_mod]
  exact Nat.mod_lt _ (bucketCount_pos scheme)

variable {scheme}

theorem toNat_ofNat_index (inside : index < scheme.bucketCount.toNat) : (UInt32.ofNat index).toNat = index := by
  apply UInt32.toNat_ofNat_of_lt
  exact Nat.lt_trans inside scheme.bucketCount.toNat_lt

theorem partitionLeaves_getElem? (inside : index < scheme.bucketCount.toNat) :
    (partitionLeaves blake3 generation scheme canonical)[index]? =
      some (leafOf blake3 scheme generation canonical (UInt32.ofNat index)) := by
  rw [partitionLeaves_eq, List.getElem?_map, List.getElem?_range inside, Option.map_some]

variable (scheme) (scope : SyncScopeId) (boundary : Cursor)

theorem assemble_root :
    merkleRoot blake3 (IntegritySnapshot.assemble blake3 scope boundary generation scheme canonical).leafHashes =
      some (IntegritySnapshot.assemble blake3 scope boundary generation scheme canonical).manifest.rootHash := by
  have first := partitionLeaves_getElem? blake3 generation canonical (bucketCount_pos scheme)
  have hashed : ((partitionLeaves blake3 generation scheme canonical).map PartitionDigest.rootHash)[0]? =
      some (leafOf blake3 scheme generation canonical (UInt32.ofNat 0)).rootHash := by
    rw [List.getElem?_map, first]
    rfl
  have reached : merkleRoot blake3 ((partitionLeaves blake3 generation scheme canonical).map
      PartitionDigest.rootHash) = some _ := MerkleTree.root_eq_foldl_path hashed
  change merkleRoot blake3 ((partitionLeaves blake3 generation scheme canonical).map PartitionDigest.rootHash) =
    some ((merkleRoot blake3 ((partitionLeaves blake3 generation scheme canonical).map
      PartitionDigest.rootHash)).getD (Vector.replicate 32 0))
  rw [reached, Option.getD_some]

end Leaves

theorem IntegritySnapshot.build_eq_ok
    (built : build blake3 scope boundary generation scheme entities maxEntities = .ok snapshot) :
    snapshot = assemble blake3 scope boundary generation scheme (replay CanonicalEntity.entity id entities) ∧
      (replay CanonicalEntity.entity id entities).size ≤ maxEntities.toNat := by
  unfold build at built
  split at built
  · cases built
  · obtain ⟨_, taken, made⟩ := bind_eq_ok_iff.mp built
    obtain ⟨rfl, bounded⟩ := collected taken (by simp)
    exact ⟨(Except.ok.inj made).symm, bounded⟩

/-- How building comes out for entities of distinct identities. -/
theorem IntegritySnapshot.build_of_distinct
    (distinct : (entities.map CanonicalEntity.entity).Nodup) (blake3 : Hash) (scope : SyncScopeId) (boundary : Cursor)
    (generation : IntegrityGeneration) (scheme : PartitionScheme) (maxEntities : UInt64) :
    build blake3 scope boundary generation scheme entities maxEntities =
      if boundary.scope ≠ scope then .error .boundaryScopeMismatch
      else if entities.length ≤ maxEntities.toNat then
        .ok (assemble blake3 scope boundary generation scheme (replay CanonicalEntity.entity id entities))
      else .error (.entityLimitExceeded maxEntities) := by
  have taken := @foldlM_collect_of_distinct maxEntities entities ∅ distinct (fun _ _ => not_mem_empty)
    (Nat.zero_le _)
  rw [size_empty, Nat.zero_add] at taken
  rw [build, taken]
  split
  · rfl
  · split <;> rfl

end Aequora.Integrity
