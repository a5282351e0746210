import Mathlib.Data.List.Pairwise
import Aequora.Integrity.Snapshot

/-! Proofs that a leaf belongs to a root. Those of a snapshot always verify; one that verifies shows
a leaf of the snapshot exactly when it shows the digest of a bucket. -/

namespace Aequora.Integrity

open Std Aequora.Base Aequora.Protocol IntegritySnapshot MerkleTree

/-! ### Counts -/

theorem foldr_add_snoc (counts : List Nat) (last : Nat) :
    (counts ++ [last]).foldr (· + ·) 0 = counts.foldr (· + ·) 0 + last := by
  induction counts with
  | nil => simp
  | cons _ _ ih => simp only [List.cons_append, List.foldr_cons, ih, Nat.add_assoc]

section
variable (classOf : Item → Nat) (items : List Item) (count : Nat)

theorem length_filter_lt_succ :
    (items.filter fun item => classOf item < count + 1).length =
      (items.filter fun item => classOf item < count).length +
        (items.filter fun item => classOf item = count).length := by
  induction items with
  | nil => rfl
  | cons item _ ih =>
    rw [List.filter_cons, List.filter_cons, List.filter_cons]
    rcases Nat.lt_trichotomy (classOf item) count with below | same | above
    · have within : classOf item < count + 1 := Nat.lt_succ_of_lt below
      have other : classOf item ≠ count := Nat.ne_of_lt below
      simp only [decide_eq_true_eq, if_pos within, if_pos below, if_neg other, List.length_cons, ih]
      omega
    · have within : classOf item < count + 1 := by omega
      have outside : ¬classOf item < count := by omega
      simp only [decide_eq_true_eq, if_pos within, if_neg outside, if_pos same, List.length_cons, ih]
      omega
    · have beyond : ¬classOf item < count + 1 := by omega
      have outside : ¬classOf item < count := Nat.lt_asymm above
      have other : classOf item ≠ count := ne_of_gt above
      simp only [decide_eq_true_eq, if_neg beyond, if_neg outside, if_neg other, ih]

theorem sum_length_classes :
    ((List.range count).map fun index => (items.filter fun item => classOf item = index).length).foldr (· + ·) 0 =
      (items.filter fun item => classOf item < count).length := by
  induction count with
  | zero => simp
  | succ _ ih =>
    rw [List.range_succ, List.map_append, List.map_singleton, foldr_add_snoc, ih, length_filter_lt_succ]

end

section Built
theorem length_listing (canonical : CanonicalTable) : (listing canonical).length = canonical.size := by
  rw [listing, List.length_map, ExtTreeMap.length_toList]

theorem partitionLeaves_count (bounded : canonical.size ≤ u64Max) :
    ((partitionLeaves blake3 generation scheme canonical).map PartitionDigest.entityCount).foldr (· + ·) 0 =
      canonical.size := by
  have counts : (partitionLeaves blake3 generation scheme canonical).map PartitionDigest.entityCount =
      (List.range scheme.bucketCount.toNat).map fun index =>
        ((listing canonical).filter fun entity => (scheme.partition blake3 entity.entity).toNat = index).length := by
    rw [partitionLeaves_eq, List.map_map]
    apply List.map_congr_left
    intro index member
    have inside := List.mem_range.mp member
    have bucket : bucketOf blake3 scheme canonical (UInt32.ofNat index) =
        (listing canonical).filter fun entity => (scheme.partition blake3 entity.entity).toNat = index := by
      apply List.filter_congr
      intro entity _
      rw [decide_eq_decide, ← UInt32.toNat_inj, toNat_ofNat_index inside]
    have fits : (bucketOf blake3 scheme canonical (UInt32.ofNat index)).length ≤ u64Max :=
      Nat.le_trans (List.length_filter_le _ _) (length_listing canonical ▸ bounded)
    simp only [Function.comp_apply, leafOf, partitionDigest, lengthOf, List.length_map]
    rw [Nat.min_eq_left fits, bucket]
  rw [counts, sum_length_classes, ← length_listing]
  rw [List.filter_eq_self.mpr fun entity _ => decide_eq_true (partition_lt blake3 scheme entity.entity)]

theorem partitionLeaves_zipIdx (member : entry ∈ (partitionLeaves blake3 generation scheme canonical).zipIdx) :
    entry.1.partition.toNat = entry.2 ∧ entry.1.generation = generation := by
  have found := List.mem_zipIdx_iff_getElem?.mp member
  have inside : entry.2 < scheme.bucketCount.toNat := by
    have bounded := (List.getElem?_eq_some_iff.mp found).1
    rwa [partitionLeaves_eq, List.length_map, List.length_range] at bounded
  rw [partitionLeaves_getElem? blake3 generation canonical inside] at found
  rw [← Option.some.inj found]
  exact ⟨toNat_ofNat_index inside, rfl⟩

theorem assemble_verifyStructure (bounded : canonical.size ≤ u64Max) :
    (assemble blake3 scope boundary generation scheme canonical).verifyStructure blake3 = .ok () := by
  rw [verifyStructure, require_eq_ok]
  refine ⟨?_, ?_, ?_, ?_, ?_⟩
  · exact fun none => absurd scheme.positive (by rw [show scheme.bucketCount = 0 from none]; decide)
  · change (partitionLeaves blake3 generation scheme canonical).length = scheme.bucketCount.toNat
    rw [partitionLeaves_eq, List.length_map, List.length_range]
  · intro _ member
    exact partitionLeaves_zipIdx member
  · change ((partitionLeaves blake3 generation scheme canonical).map PartitionDigest.entityCount).foldr (· + ·) 0 %
      (u64Max + 1) = min canonical.size u64Max
    rw [partitionLeaves_count bounded, Nat.min_eq_left bounded]
    exact Nat.mod_eq_of_lt (Nat.lt_succ_of_le bounded)
  · exact assemble_root blake3 scheme generation canonical scope boundary

variable {partition : IntegrityPartitionId}

theorem assemble_partitions (inside : partition < scheme.bucketCount) :
    (assemble blake3 scope boundary generation scheme canonical).partitions[partition.toNat]? =
      some (leafOf blake3 scheme generation canonical partition) := by
  have listed := partitionLeaves_getElem? blake3 generation canonical (UInt32.lt_iff_toNat_lt.mp inside)
  rwa [UInt32.ofNat_toNat] at listed

section
variable {snapshot : IntegritySnapshot} (found : snapshot.partitions[partition.toNat]? = some leaf)
include found

theorem IntegritySnapshot.proof_of_leaf :
    snapshot.proof blake3 partition =
      .ok { partition := leaf
            siblings := path (nodeHash blake3) snapshot.leafHashes partition.toNat } := by
  simp only [proof, found]

theorem IntegritySnapshot.path_verifies
    (rooted : merkleRoot blake3 snapshot.leafHashes = some snapshot.manifest.rootHash) :
    MerkleProof.verifies blake3
      { partition := leaf
        siblings := path (nodeHash blake3) snapshot.leafHashes partition.toNat }
      snapshot.manifest.rootHash = true := by
  have hashed : snapshot.leafHashes[partition.toNat]? = some leaf.rootHash := by
    rw [leafHashes, List.getElem?_map, found, Option.map_some]
  rw [merkleRoot, root_eq_foldl_path hashed] at rooted
  exact decide_eq_true (Option.some.inj rooted)

end

end Built

/-! ### The proofs of a snapshot -/

/-- Every built snapshot is well-formed, and for each of its buckets it hands out a proof that
shows the bucket's leaf and verifies against the root, whatever the number of buckets. -/
theorem built_proofs_verify
    (built : build blake3 scope boundary generation scheme entities maxEntities = .ok snapshot) :
    snapshot.verifyStructure blake3 = .ok () ∧
      ∀ partition : IntegrityPartitionId, partition < scheme.bucketCount →
        ∃ proof, snapshot.proof blake3 partition = .ok proof ∧
          proof.partition.partition = partition ∧
          snapshot.partitions[partition.toNat]? = some proof.partition ∧
          proof.verifies blake3 snapshot.manifest.rootHash = true := by
  obtain ⟨rfl, bounded⟩ := build_eq_ok built
  refine ⟨assemble_verifyStructure (Nat.le_trans bounded ?_), ?_⟩
  · exact Nat.le_of_lt_succ maxEntities.toNat_lt
  · intro partition inside
    have found : (assemble blake3 scope boundary generation scheme
        (replay CanonicalEntity.entity id entities)).partitions[partition.toNat]? =
          some (leafOf blake3 scheme generation (replay CanonicalEntity.entity id entities) partition) :=
      assemble_partitions inside
    refine ⟨_, proof_of_leaf found, rfl, found, ?_⟩
    exact path_verifies found (assemble_root _ _ _ _ _ _)

def exampleHash : Hash := fun message =>
  let mixed := message.foldl (fun mixed byte => mixed * 259 + byte.toUInt16) 11
  Vector.replicate 16 mixed.toUInt8 ++ Vector.replicate 16 (mixed >>> 8).toUInt8

def exampleEntity (id : BitVec 128) (payload : List UInt8) : CanonicalEntity where
  entity := { entityType := 1, entityId := ⟨id⟩ }
  version := 1
  hashSchema := 1
  payload
  tombstone := false

def threeBuckets : PartitionScheme := { bucketCount := 3, positive := by decide, bounded := by decide }

def exampleBuild (entities : List CanonicalEntity) : Except IntegrityError IntegritySnapshot :=
  build exampleHash ⟨42⟩ (.legacy ⟨42⟩ 9) 1 threeBuckets entities 100

def threeEntities : List CanonicalEntity := [exampleEntity 1 [1], exampleEntity 2 [2], exampleEntity 3 [3]]

theorem threeEntities_distinct : (threeEntities.map CanonicalEntity.entity).Nodup := by decide

def exampleSnapshot : IntegritySnapshot :=
  .assemble exampleHash ⟨42⟩ (.legacy ⟨42⟩ 9) 1 threeBuckets (replay CanonicalEntity.entity id threeEntities)

theorem exampleBuild_three : exampleBuild threeEntities = .ok exampleSnapshot := by
  rfl

/-- Three buckets, where the last leaf is paired with itself. -/
theorem built_proofs_verify_three :
    exampleBuild threeEntities = .ok exampleSnapshot ∧ exampleSnapshot.verifyStructure exampleHash = .ok () ∧
      ∃ proof, exampleSnapshot.proof exampleHash 2 = .ok proof ∧ exampleSnapshot.partitions[2]? = some proof.partition ∧
        proof.verifies exampleHash exampleSnapshot.manifest.rootHash = true := by
  have built := exampleBuild_three
  obtain ⟨structured, proofs⟩ := built_proofs_verify built
  obtain ⟨proof, asked, _, leaf, verified⟩ := proofs 2 (by decide)
  exact ⟨exampleBuild_three, structured, proof, asked, leaf, verified⟩

/-! ### What a proof shows -/

section Sound
variable (blake3 : Hash) (generation : IntegrityGeneration) (scheme : PartitionScheme) (canonical : CanonicalTable)

def bucketMessage (partition : IntegrityPartitionId) : List UInt8 :=
  partitionMessage partition generation
    ((bucketOf blake3 scheme canonical partition).map (CanonicalEntity.digest blake3))

/-- The messages that are hashed for the leaves and the nodes of a table's tree. -/
def treeMessages : List (List UInt8) :=
  (List.range scheme.bucketCount.toNat).map
      (fun index => bucketMessage blake3 generation scheme canonical (UInt32.ofNat index)) ++
    (pairs (nodeHash blake3)
      ((partitionLeaves blake3 generation scheme canonical).map PartitionDigest.rootHash)).map nodeMessage

def MerkleProof.messages (proof : MerkleProof) : List (List UInt8) :=
  (climbed (nodeHash blake3) proof.partition.rootHash proof.siblings).map nodeMessage

/-- What a proof shows is the digest of a bucket: its fields are those that its hash covers. -/
def MerkleProof.Genuine (hashed : Set (List UInt8)) (proof : MerkleProof) : Prop :=
  ∃ entities, partitionMessage proof.partition.partition proof.partition.generation entities ∈ hashed ∧
    proof.partition = partitionDigest blake3 proof.partition.partition proof.partition.generation entities

variable {blake3 generation scheme canonical}

theorem combine_injOn (free : Set.InjOn blake3 hashed) :
    Set.InjOn (combine (nodeHash blake3)) {pair | nodeMessage pair ∈ hashed} := by
  intro _ left _ right same
  exact nodeMessage_injective (free left right same)

theorem mem_leafHashes
    (member : digest ∈ (partitionLeaves blake3 generation scheme canonical).map PartitionDigest.rootHash) :
    ∃ index < scheme.bucketCount.toNat,
      digest = blake3 (bucketMessage blake3 generation scheme canonical (UInt32.ofNat index)) := by
  rw [partitionLeaves_eq, List.map_map] at member
  obtain ⟨index, listed, made⟩ := List.mem_map.mp member
  exact ⟨index, List.mem_range.mp listed, made.symm⟩

theorem bucketMessage_mem (inside : index < scheme.bucketCount.toNat) :
    bucketMessage blake3 generation scheme canonical (UInt32.ofNat index) ∈
      treeMessages blake3 generation scheme canonical :=
  List.mem_append_left _ (List.mem_map.mpr ⟨index, List.mem_range.mpr inside, rfl⟩)

theorem nodeMessage_mem (member : pair ∈ pairs (nodeHash blake3)
      ((partitionLeaves blake3 generation scheme canonical).map PartitionDigest.rootHash)) :
    nodeMessage pair ∈ treeMessages blake3 generation scheme canonical :=
  List.mem_append_right _ (List.mem_map.mpr ⟨pair, member, rfl⟩)

section
variable (free : Set.InjOn blake3 hashed)
  (covered : ∀ message ∈ treeMessages blake3 generation scheme canonical, message ∈ hashed)
include free covered

/-- Without collisions a bucket's hash that lies in the tree is one of its leaves. -/
theorem leaf_of_inside (known : partitionMessage partition claimed entities ∈ hashed)
    (inside : Inside (nodeHash blake3)
      ((partitionLeaves blake3 generation scheme canonical).map PartitionDigest.rootHash)
      (blake3 (partitionMessage partition claimed entities))) :
    partition < scheme.bucketCount ∧
      partitionDigest blake3 partition claimed entities = leafOf blake3 scheme generation canonical partition := by
  rcases inside with leaf | ⟨_, listed, made⟩
  · obtain ⟨_, below, same⟩ := mem_leafHashes leaf
    have equal := free known (covered _ (bucketMessage_mem below)) same
    obtain ⟨rfl, rfl, rfl⟩ := partitionMessage_injective equal
    refine ⟨UInt32.lt_iff_toNat_lt.mpr ?_, rfl⟩
    rwa [toNat_ofNat_index below]
  · have equal := free known (covered _ (nodeMessage_mem listed)) made
    exact absurd equal (partitionMessage_ne_nodeMessage _ _ _ _)

/-- Nodes of the tree are not among its leaves. -/
theorem combine_not_leaf (known : nodeMessage pair ∈ hashed) :
    combine (nodeHash blake3) pair ∉
      (partitionLeaves blake3 generation scheme canonical).map PartitionDigest.rootHash := by
  intro leaf
  obtain ⟨_, below, same⟩ := mem_leafHashes leaf
  have equal := free known (covered _ (bucketMessage_mem below)) same
  exact partitionMessage_ne_nodeMessage _ _ _ _ equal.symm

end

variable {proof : MerkleProof}

theorem genuine_of_leaf (covered : ∀ message ∈ treeMessages blake3 generation scheme canonical, message ∈ hashed)
    (found : (assemble blake3 scope boundary generation scheme canonical).partitions[
      proof.partition.partition.toNat]? = some proof.partition) : proof.Genuine blake3 hashed := by
  have below : proof.partition.partition.toNat < scheme.bucketCount.toNat := by
    have inside := (List.getElem?_eq_some_iff.mp found).1
    change _ < (partitionLeaves blake3 generation scheme canonical).length at inside
    rwa [partitionLeaves_eq, List.length_map, List.length_range] at inside
  have known := covered _ (bucketMessage_mem below)
  rw [UInt32.ofNat_toNat] at known
  rw [assemble_partitions (UInt32.lt_iff_toNat_lt.mpr below)] at found
  have shown := Option.some.inj found
  have claimed : proof.partition.generation = generation := by rw [← shown]; rfl
  refine ⟨(bucketOf blake3 scheme canonical proof.partition.partition).map (CanonicalEntity.digest blake3), ?_, ?_⟩
  · rw [claimed]
    exact known
  · rw [claimed]
    exact shown.symm

theorem leaf_of_genuine (free : Set.InjOn blake3 hashed)
    (inTree : ∀ message ∈ treeMessages blake3 generation scheme canonical, message ∈ hashed)
    (inWalk : ∀ message ∈ proof.messages blake3, message ∈ hashed)
    (verified : proof.verifies blake3
      (assemble blake3 scope boundary generation scheme canonical).manifest.rootHash = true)
    (genuine : proof.Genuine blake3 hashed) :
    (assemble blake3 scope boundary generation scheme canonical).partitions[
      proof.partition.partition.toNat]? = some proof.partition := by
  obtain ⟨_, known, shown⟩ := genuine
  have reached := assemble_root blake3 scheme generation canonical scope boundary
  rw [← of_decide_eq_true verified] at reached
  have inside := inside_of_root (combine_injOn free)
    (fun pair listed => inTree _ (nodeMessage_mem listed))
    (fun pair listed => inWalk _ (List.mem_map.mpr ⟨pair, listed, rfl⟩))
    (fun pair listed => combine_not_leaf free inTree listed) reached
  rw [congrArg PartitionDigest.rootHash shown] at inside
  obtain ⟨below, leaf⟩ := leaf_of_inside free inTree known inside
  rw [assemble_partitions below, ← leaf, ← shown]

end Sound

/-- Without collisions among the messages hashed, a proof that verifies shows the leaf of the snapshot
at the number it names if and only if what it shows is the digest of a bucket. The verifier
hashes up from the leaf's hash and reads none of the other fields. -/
theorem verified_leaf_iff_genuine {proof : MerkleProof}
    (built : build blake3 scope boundary generation scheme entities maxEntities = .ok snapshot)
    (free : Set.InjOn blake3 hashed)
    (covered : ∀ message ∈ treeMessages blake3 generation scheme (replay CanonicalEntity.entity id entities) ++
      proof.messages blake3, message ∈ hashed)
    (verified : proof.verifies blake3 snapshot.manifest.rootHash = true) :
    snapshot.partitions[proof.partition.partition.toNat]? = some proof.partition ↔ proof.Genuine blake3 hashed := by
  obtain ⟨rfl, _⟩ := build_eq_ok built
  obtain ⟨inTree, inWalk⟩ := List.forall_mem_append.mp covered
  exact ⟨genuine_of_leaf inTree, leaf_of_genuine free inTree inWalk verified⟩

/-- The snapshot's proof for its last bucket. -/
def exampleProof : MerkleProof where
  partition := leafOf exampleHash threeBuckets 1 (replay CanonicalEntity.entity id threeEntities) 2
  siblings := path (nodeHash exampleHash) exampleSnapshot.leafHashes (UInt32.toNat 2)

def exampleMessages : List (List UInt8) :=
  treeMessages exampleHash 1 threeBuckets (replay CanonicalEntity.entity id threeEntities) ++
    exampleProof.messages exampleHash

theorem injOn_of_pairwise {messages : List (List UInt8)}
    (apart : messages.Pairwise fun first second => blake3 first = blake3 second → first = second) :
    Set.InjOn blake3 {message | message ∈ messages} := by
  have : Std.Symm fun first second => blake3 first = blake3 second → first = second :=
    ⟨fun _ _ swapped same => (swapped same.symm).symm⟩
  have both := apart.forall_of_forall fun _ _ _ => rfl
  exact fun first left second right => both left right

theorem exampleHash_injOn : Set.InjOn exampleHash {message | message ∈ exampleMessages} :=
  injOn_of_pairwise (by decide +kernel)

theorem exampleProof_leaf : exampleSnapshot.partitions[exampleProof.partition.partition.toNat]? =
    some exampleProof.partition := assemble_partitions (by decide)

theorem exampleProof_verifies : exampleProof.verifies exampleHash exampleSnapshot.manifest.rootHash = true := by
  have rooted : merkleRoot exampleHash exampleSnapshot.leafHashes = some exampleSnapshot.manifest.rootHash :=
    assemble_root _ _ _ _ _ _
  have found : exampleSnapshot.partitions[UInt32.toNat 2]? = some exampleProof.partition := exampleProof_leaf
  exact path_verifies found rooted

theorem verified_leaf_iff_genuine_three :
    exampleSnapshot.partitions[exampleProof.partition.partition.toNat]? = some exampleProof.partition ∧
      exampleProof.Genuine exampleHash {message | message ∈ exampleMessages} := by
  have built := exampleBuild_three
  refine ⟨exampleProof_leaf, ?_⟩
  exact (verified_leaf_iff_genuine built exampleHash_injOn (fun _ listed => listed) exampleProof_verifies).mp
    exampleProof_leaf

def MerkleProof.claiming (proof : MerkleProof) (entityCount : Nat) : MerkleProof :=
  { proof with partition := { proof.partition with entityCount } }

theorem MerkleProof.verifies_claiming (blake3 : Hash) (proof : MerkleProof) (entityCount : Nat) (root : IntegrityDigest) :
    (proof.claiming entityCount).verifies blake3 root = proof.verifies blake3 root ∧
      (proof.claiming entityCount).messages blake3 = proof.messages blake3 ∧
      (proof.claiming entityCount).partition.partition = proof.partition.partition := ⟨rfl, rfl, rfl⟩

/-- A proof that shows five entities for a bucket of one verifies all the same. -/
theorem verified_leaf_forged_count : exampleBuild threeEntities = .ok exampleSnapshot ∧
      Set.InjOn exampleHash {message | message ∈ exampleMessages} ∧
      (∀ message ∈ treeMessages exampleHash 1 threeBuckets (replay CanonicalEntity.entity id threeEntities) ++
        (exampleProof.claiming 5).messages exampleHash, message ∈ exampleMessages) ∧
      (exampleProof.claiming 5).verifies exampleHash exampleSnapshot.manifest.rootHash = true ∧
      exampleSnapshot.partitions[(exampleProof.claiming 5).partition.partition.toNat]? = some exampleProof.partition ∧
      (exampleProof.claiming 5).partition ≠ exampleProof.partition := by
  obtain ⟨verifies, messages, number⟩ :=
    MerkleProof.verifies_claiming exampleHash exampleProof 5 exampleSnapshot.manifest.rootHash
  rw [verifies, messages, number]
  refine ⟨exampleBuild_three, exampleHash_injOn, fun message listed => listed, exampleProof_verifies,
    exampleProof_leaf, ?_⟩
  intro same
  have counts : 5 = exampleProof.partition.entityCount := congrArg PartitionDigest.entityCount same
  exact absurd counts (by decide +kernel)

end Aequora.Integrity
