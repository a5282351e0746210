import Aequora.Base.MarkedReplay
import Aequora.Integrity.Proof
import Mathlib.Data.List.Dedup

/-! Comparing two snapshots, and classifying where the collections behind them differ. -/

namespace Aequora.Integrity

open Std Aequora.Base Aequora.Protocol IntegritySnapshot List

inductive DivergenceKind where
  | missingLocal | extraLocal | versionMismatch | sameVersionPayloadMismatch | tombstoneMismatch
  | schemaMismatch
deriving DecidableEq

structure EntityDivergence where
  entity : EntityRef
  kind : DivergenceKind
deriving DecidableEq

/-- The first difference between what the authority and the replica hold, in the order of the checks. -/
def divergenceKind : Option CanonicalEntity → Option CanonicalEntity → Option DivergenceKind
  | some _, none => some .missingLocal
  | none, some _ => some .extraLocal
  | some authority, some replica =>
    if authority.version ≠ replica.version then some .versionMismatch
    else if authority.hashSchema ≠ replica.hashSchema then some .schemaMismatch
    else if authority.tombstone ≠ replica.tombstone then some .tombstoneMismatch
    else if authority.payload ≠ replica.payload then some .sameVersionPayloadMismatch
    else none
  | none, none => none

def comparedKeys (authority replica : CanonicalTable) : List EntityRef :=
  (sortByKey id (authority.keys ++ replica.keys)).dedup

def classifyDivergence (authority replica : List CanonicalEntity) : List EntityDivergence :=
  let authority := replay CanonicalEntity.entity id authority
  let replica := replay CanonicalEntity.entity id replica
  (comparedKeys authority replica).filterMap fun entity =>
    (divergenceKind authority[entity]? replica[entity]?).map (EntityDivergence.mk entity)

def held (entities : List CanonicalEntity) (entity : EntityRef) : Option CanonicalEntity :=
  entities.find? fun candidate => candidate.entity = entity

abbrev tableOf (entities : List CanonicalEntity) : CanonicalTable := replay CanonicalEntity.entity id entities

/-! ### Collections as tables -/

section Held
variable {entities : List CanonicalEntity}

theorem held_entity (holds : held entities entity = some found) : found.entity = entity := by
  simpa using find?_some holds

section
variable (distinct : (entities.map CanonicalEntity.entity).Nodup)
include distinct

theorem lookup_replay_eq_held (entity : EntityRef) :
    (tableOf entities)[entity]? = held entities entity := by
  rw [tableOf, replay, lookup_replayFrom, overwrite_of_nodup distinct]
  exact Option.or_none

theorem replay_perm (same : permuted.Perm entities) :
    tableOf permuted = tableOf entities := by
  have alike : (permuted.map CanonicalEntity.entity).Nodup := (same.map CanonicalEntity.entity).nodup_iff.mpr distinct
  apply ExtTreeMap.ext_getElem?
  intro entity
  by_cases member : entity ∈ permuted.map CanonicalEntity.entity
  · obtain ⟨_, listed, rfl⟩ := mem_map.mp member
    rw [lookup_replay_of_nodup alike listed, lookup_replay_of_nodup distinct (same.mem_iff.mp listed)]
  · have absent : entity ∉ entities.map CanonicalEntity.entity :=
      mt (same.map CanonicalEntity.entity).mem_iff.mpr member
    rw [ExtTreeMap.getElem?_eq_none (mt mem_replay.mp member), ExtTreeMap.getElem?_eq_none (mt mem_replay.mp absent)]

/-- A snapshot does not depend on the order of the entities, nor does the failure to build one. -/
theorem build_perm (same : permuted.Perm entities) (blake3 : Hash) (scope : SyncScopeId) (boundary : Cursor)
    (generation : IntegrityGeneration) (scheme : PartitionScheme) (maxEntities : UInt64) :
    build blake3 scope boundary generation scheme permuted maxEntities =
      build blake3 scope boundary generation scheme entities maxEntities := by
  have alike : (permuted.map CanonicalEntity.entity).Nodup := (same.map CanonicalEntity.entity).nodup_iff.mpr distinct
  have filled : replay CanonicalEntity.entity id permuted = replay CanonicalEntity.entity id entities :=
    replay_perm distinct same
  rw [build_of_distinct alike, build_of_distinct distinct, filled, same.length_eq]

end

end Held

/-! ### Leaves that agree -/

section Agreement
/-- The messages that are hashed to build a snapshot. -/
def snapshotMessages (blake3 : Hash) (generation : IntegrityGeneration) (scheme : PartitionScheme)
    (entities : List CanonicalEntity) : List (List UInt8) :=
  (listing (tableOf entities)).map CanonicalEntity.message ++
    treeMessages blake3 generation scheme (tableOf entities)

theorem digest_injOn (free : Set.InjOn blake3 hashed) :
    Set.InjOn (CanonicalEntity.digest blake3) {entity | entity.message ∈ hashed} := by
  intro _ left _ right same
  exact CanonicalEntity.message_injective (free left right (congrArg EntityDigest.hash same))

abbrev bucket (blake3 : Hash) (scheme : PartitionScheme) (entities : List CanonicalEntity)
    (partition : IntegrityPartitionId) : List CanonicalEntity :=
  bucketOf blake3 scheme (tableOf entities) partition

variable {partition : IntegrityPartitionId}

theorem mem_bucket (distinct : (entities.map CanonicalEntity.entity).Nodup) :
    entity ∈ bucket blake3 scheme entities partition ↔
      held entities entity.entity = some entity ∧ scheme.partition blake3 entity.entity = partition := by
  rw [bucket, bucketOf, mem_filter, mem_listing replay_carried, lookup_replay_eq_held distinct, decide_eq_true_iff]

variable (leftDistinct : (left.map CanonicalEntity.entity).Nodup)
  (rightDistinct : (right.map CanonicalEntity.entity).Nodup) (free : Set.InjOn blake3 hashed)
  (inLeft : ∀ message ∈ snapshotMessages blake3 generation scheme left, message ∈ hashed)
  (inRight : ∀ message ∈ snapshotMessages blake3 generation scheme right, message ∈ hashed)
include leftDistinct rightDistinct

theorem held_of_bucket_eq (same : bucket blake3 scheme left partition = bucket blake3 scheme right partition)
    (falls : scheme.partition blake3 entity = partition)
    (holds : held left entity = some found) : held right entity = some found := by
  cases held_entity holds
  have member : found ∈ bucket blake3 scheme left partition := (mem_bucket leftDistinct).mpr ⟨holds, falls⟩
  rw [same] at member
  exact ((mem_bucket rightDistinct).mp member).1

theorem bucket_eq_iff (partition : IntegrityPartitionId) :
    bucket blake3 scheme left partition = bucket blake3 scheme right partition ↔
      ∀ entity, scheme.partition blake3 entity = partition → held left entity = held right entity := by
  constructor
  · intro same entity falls
    apply Option.ext
    intro _
    exact ⟨held_of_bucket_eq leftDistinct rightDistinct same falls,
      held_of_bucket_eq rightDistinct leftDistinct same.symm falls⟩
  · intro same
    have sorted (entities : List CanonicalEntity) :
        SortedByKey CanonicalEntity.entity (bucket blake3 scheme entities partition) :=
      (sortedByKey_listing replay_carried).sublist filter_sublist
    refine (sorted left).ext (sorted right) fun entity => ?_
    rw [mem_bucket leftDistinct, mem_bucket rightDistinct]
    constructor
    · intro ⟨holds, falls⟩
      exact ⟨same entity.entity falls ▸ holds, falls⟩
    · intro ⟨holds, falls⟩
      exact ⟨(same entity.entity falls).symm ▸ holds, falls⟩

include free inLeft inRight

omit leftDistinct rightDistinct in
/-- Without collisions leaves have one hash only for equal buckets. -/
theorem leaf_hash_eq_iff (inside : index < scheme.bucketCount.toNat) :
    (leafOf blake3 scheme generation (tableOf left) (UInt32.ofNat index)).rootHash =
        (leafOf blake3 scheme generation (tableOf right) (UInt32.ofNat index)).rootHash ↔
      bucket blake3 scheme left (UInt32.ofNat index) = bucket blake3 scheme right (UInt32.ofNat index) := by
  constructor
  · intro same
    have messages := free (inLeft _ (mem_append_right _ (bucketMessage_mem inside)))
      (inRight _ (mem_append_right _ (bucketMessage_mem inside))) same
    refine MerkleTree.map_injOn (digest_injOn free) ?_ ?_ (partitionMessage_injective messages).2.2
    · intro entity member
      exact inLeft _ (mem_append_left _ (mem_map_of_mem (mem_filter.mp member).1))
    · intro _ member
      exact inRight _ (mem_append_left _ (mem_map_of_mem (mem_filter.mp member).1))
  · intro same
    unfold bucket at same
    unfold leafOf
    rw [same]

/-- The leaves of two snapshots agree when the collections hold the same for every identity. -/
theorem leafHashes_eq_iff (scope : SyncScopeId) (boundary : Cursor) :
    (assemble blake3 scope boundary generation scheme (tableOf left)).leafHashes =
      (assemble blake3 scope boundary generation scheme (tableOf right)).leafHashes ↔
      ∀ entity, held left entity = held right entity := by
  change (partitionLeaves _ _ _ _).map _ = (partitionLeaves _ _ _ _).map _ ↔ _
  rw [partitionLeaves_eq, partitionLeaves_eq, map_map, map_map]
  constructor
  · intro same entity
    have inside := partition_lt blake3 scheme entity
    have hashes := map_inj_left.mp same _ (mem_range.mpr inside)
    have buckets := (leaf_hash_eq_iff free inLeft inRight inside).mp hashes
    rw [UInt32.ofNat_toNat] at buckets
    exact (bucket_eq_iff leftDistinct rightDistinct _).mp buckets entity rfl
  · intro same
    apply map_congr_left
    intro _ listed
    apply (leaf_hash_eq_iff free inLeft inRight (mem_range.mp listed)).mpr
    exact (bucket_eq_iff leftDistinct rightDistinct _).mpr fun entity _ => same entity

omit leftDistinct rightDistinct in
/-- Roots agree when the leaves do. -/
theorem rootHash_eq_iff (scope : SyncScopeId) (boundary : Cursor) :
    (assemble blake3 scope boundary generation scheme (tableOf left)).manifest.rootHash =
      (assemble blake3 scope boundary generation scheme (tableOf right)).manifest.rootHash ↔
      (assemble blake3 scope boundary generation scheme (tableOf left)).leafHashes =
      (assemble blake3 scope boundary generation scheme (tableOf right)).leafHashes := by
  have ownRoot := assemble_root blake3 scheme generation (tableOf left) scope boundary
  have otherRoot := assemble_root blake3 scheme generation (tableOf right) scope boundary
  constructor
  · intro same
    rw [same, ← otherRoot] at ownRoot
    refine MerkleTree.root_injective (combine_injOn free) ?_ ?_ ?_ ownRoot
    · change ((partitionLeaves _ _ _ _).map _).length = ((partitionLeaves _ _ _ _).map _).length
      rw [partitionLeaves_eq, partitionLeaves_eq]
      simp only [length_map]
    · exact fun pair member => inLeft _ (mem_append_right _ (nodeMessage_mem member))
    · exact fun pair member => inRight _ (mem_append_right _ (nodeMessage_mem member))
  · intro same
    rw [same, otherRoot] at ownRoot
    exact (Option.some.inj ownRoot).symm

/-- The buckets on which two snapshots differ, as they are compared leaf by leaf. -/
def mismatches (blake3 : Hash) (generation : IntegrityGeneration) (scheme : PartitionScheme)
    (left right : List CanonicalEntity) : List IntegrityPartitionId :=
  (range scheme.bucketCount.toNat).filterMap fun index =>
    if (leafOf blake3 scheme generation (tableOf left) (UInt32.ofNat index)).rootHash ≠
      (leafOf blake3 scheme generation (tableOf right) (UInt32.ofNat index)).rootHash then
      some (UInt32.ofNat index)
    else none

omit leftDistinct rightDistinct free inLeft inRight in
theorem compare_assemble (scope : SyncScopeId) (boundary : Cursor) :
    (assemble blake3 scope boundary generation scheme (tableOf left)).compare
        (assemble blake3 scope boundary generation scheme (tableOf right)) =
      if (assemble blake3 scope boundary generation scheme (tableOf left)).manifest.rootHash =
          (assemble blake3 scope boundary generation scheme (tableOf right)).manifest.rootHash then .ok .match
      else .ok (.mismatch (mismatches blake3 generation scheme left right)) := by
  have leaves : ((partitionLeaves blake3 generation scheme (tableOf left)).zip
      (partitionLeaves blake3 generation scheme (tableOf right))).filterMap
        (fun leaves => if leaves.1.rootHash ≠ leaves.2.rootHash then some leaves.1.partition else none) =
      mismatches blake3 generation scheme left right := by
    rw [partitionLeaves_eq, partitionLeaves_eq, zip_map', filterMap_map]
    rfl
  have compatible : ensureCompatible
      (assemble blake3 scope boundary generation scheme (tableOf left)).manifest
      (assemble blake3 scope boundary generation scheme (tableOf right)).manifest = .ok () := by
    simp [ensureCompatible, assemble, require]
    rfl
  rw [IntegritySnapshot.compare, compatible]
  split
  · rfl
  · rw [← leaves]
    rfl

omit leftDistinct rightDistinct free inLeft inRight in
theorem mismatches_sorted : (mismatches blake3 generation scheme left right).Pairwise (· < ·) := by
  rw [mismatches, pairwise_filterMap]
  refine pairwise_lt_range.imp_of_mem ?_
  intro first second firstListed secondListed before lower taken upper takenToo
  have lowerIs : lower = UInt32.ofNat first := by
    split at taken
    · exact (Option.some.inj taken).symm
    · cases taken
  have upperIs : upper = UInt32.ofNat second := by
    split at takenToo
    · exact (Option.some.inj takenToo).symm
    · cases takenToo
  rw [lowerIs, upperIs, UInt32.lt_iff_toNat_lt, toNat_ofNat_index (mem_range.mp firstListed),
    toNat_ofNat_index (mem_range.mp secondListed)]
  exact before

/-- The buckets listed are those of the identities for which the collections hold different things. -/
theorem mem_mismatches : partition ∈ mismatches blake3 generation scheme left right ↔
      ∃ entity, scheme.partition blake3 entity = partition ∧ held left entity ≠ held right entity := by
  have differ {index : Nat} (inside : index < scheme.bucketCount.toNat) :
      (leafOf blake3 scheme generation (tableOf left) (UInt32.ofNat index)).rootHash ≠
          (leafOf blake3 scheme generation (tableOf right) (UInt32.ofNat index)).rootHash ↔
        ∃ entity, scheme.partition blake3 entity = UInt32.ofNat index ∧ held left entity ≠ held right entity := by
    rw [Ne, leaf_hash_eq_iff free inLeft inRight inside, bucket_eq_iff leftDistinct rightDistinct]
    push Not
    rfl
  rw [mismatches, mem_filterMap]
  constructor
  · rintro ⟨_, listed, taken⟩
    split at taken
    · rename_i unequal
      rw [← Option.some.inj taken]
      exact (differ (mem_range.mp listed)).mp unequal
    · cases taken
  · rintro ⟨entity, rfl, unequal⟩
    have inside := partition_lt blake3 scheme entity
    refine ⟨_, mem_range.mpr inside, ?_⟩
    rw [if_pos ((differ inside).mpr ⟨entity, UInt32.ofNat_toNat.symm, unequal⟩), UInt32.ofNat_toNat]

end Agreement

/-! ### Classification -/

theorem divergenceKind_eq_none
    (alike : ∀ first second, authority = some first → replica = some second → first.entity = second.entity) :
    divergenceKind authority replica = none ↔ authority = replica := by
  cases authority with
  | none => cases replica <;> simp [divergenceKind]
  | some first =>
    cases replica with
    | none => simp [divergenceKind]
    | some second =>
      have entities := alike first second rfl rfl
      obtain ⟨entity, _, _, _, _⟩ := first
      obtain ⟨other, _, _, _, _⟩ := second
      obtain rfl : entity = other := entities
      simp only [divergenceKind, Option.some.injEq, CanonicalEntity.mk.injEq, true_and]
      split_ifs <;> simp_all

theorem comparedKeys_nodup (authority replica : CanonicalTable) : (comparedKeys authority replica).Nodup :=
  nodup_dedup _

theorem mem_comparedKeys : entity ∈ comparedKeys authority replica ↔ entity ∈ authority ∨ entity ∈ replica := by
  rw [comparedKeys, mem_dedup, mem_sortByKey, mem_append, ExtTreeMap.mem_keys, ExtTreeMap.mem_keys]

section Classified
variable {left right : List CanonicalEntity}

theorem classified_entities : (classifyDivergence left right).map EntityDivergence.entity =
    (comparedKeys (tableOf left) (tableOf right)).filter fun entity =>
      (divergenceKind (tableOf left)[entity]? (tableOf right)[entity]?).isSome := by
  rw [classifyDivergence, map_filterMap]
  induction comparedKeys (tableOf left) (tableOf right) with
  | nil => rfl
  | cons entity _ ih =>
    rw [filterMap_cons, filter_cons, ih]
    cases divergenceKind (tableOf left)[entity]? (tableOf right)[entity]? <;> simp

variable (leftDistinct : (left.map CanonicalEntity.entity).Nodup)
  (rightDistinct : (right.map CanonicalEntity.entity).Nodup)
include leftDistinct rightDistinct

theorem mem_classified :
    entity ∈ (classifyDivergence left right).map EntityDivergence.entity ↔ held left entity ≠ held right entity := by
  have alike : ∀ first second, held left entity = some first → held right entity = some second →
      first.entity = second.entity := by
    intro _ _ own other
    rw [held_entity own, held_entity other]
  rw [classified_entities, mem_filter, mem_comparedKeys, lookup_replay_eq_held leftDistinct,
    lookup_replay_eq_held rightDistinct, Option.isSome_iff_ne_none, Ne, divergenceKind_eq_none alike]
  constructor
  · exact And.right
  · intro different
    refine ⟨?_, different⟩
    by_contra absent
    rw [not_or] at absent
    have own := ExtTreeMap.getElem?_eq_none absent.1
    have other := ExtTreeMap.getElem?_eq_none absent.2
    rw [lookup_replay_eq_held leftDistinct] at own
    rw [lookup_replay_eq_held rightDistinct] at other
    exact different (own.trans other.symm)

theorem count_classified (entity : EntityRef) :
    ((classifyDivergence left right).map EntityDivergence.entity).count entity =
      if held left entity = held right entity then 0 else 1 := by
  have once : ((classifyDivergence left right).map EntityDivergence.entity).Nodup := by
    rw [classified_entities]
    exact (comparedKeys_nodup _ _).filter _
  rw [once.count]
  simp only [mem_classified leftDistinct rightDistinct, ne_eq, ite_not]

end Classified

/-! ### Localisation -/

/-- Snapshots of one scope, boundary, generation and scheme, without collisions among the messages they
hash. They do not depend on the order of the entities; they match exactly for equal collections, and
otherwise list in order the buckets of the entities that differ, each of which the classification
reports once. -/
theorem divergence_localised
    {maxLeft maxRight : UInt64} {first second : IntegritySnapshot} {hashed : Set (List UInt8)}
    (leftDistinct : (left.map CanonicalEntity.entity).Nodup)
    (rightDistinct : (right.map CanonicalEntity.entity).Nodup)
    (leftBuilt : build blake3 scope boundary generation scheme left maxLeft = .ok first)
    (rightBuilt : build blake3 scope boundary generation scheme right maxRight = .ok second)
    (free : Set.InjOn blake3 hashed)
    (covered : ∀ message ∈ snapshotMessages blake3 generation scheme left ++
      snapshotMessages blake3 generation scheme right, message ∈ hashed) :
    (∀ permuted maxEntities, permuted.Perm left →
      build blake3 scope boundary generation scheme permuted maxEntities =
        build blake3 scope boundary generation scheme left maxEntities) ∧
    (∀ permuted maxEntities, permuted.Perm right →
      build blake3 scope boundary generation scheme permuted maxEntities =
        build blake3 scope boundary generation scheme right maxEntities) ∧
    (first.compare second = .ok .match ↔ ∀ entity, held left entity = held right entity) ∧
    ((∃ entity, held left entity ≠ held right entity) →
      ∃ buckets, first.compare second = .ok (.mismatch buckets) ∧ buckets.Pairwise (· < ·) ∧
        ∀ partition, partition ∈ buckets ↔
          ∃ entity, scheme.partition blake3 entity = partition ∧ held left entity ≠ held right entity) ∧
    ∀ entity, ((classifyDivergence left right).map EntityDivergence.entity).count entity =
      if held left entity = held right entity then 0 else 1 := by
  obtain ⟨inLeft, inRight⟩ := forall_mem_append.mp covered
  have roots := (rootHash_eq_iff free inLeft inRight scope boundary).trans
    (leafHashes_eq_iff leftDistinct rightDistinct free inLeft inRight scope boundary)
  refine ⟨?_, ?_, ?_, ?_, count_classified leftDistinct rightDistinct⟩
  · intro permuted maxEntities same
    exact build_perm leftDistinct same _ _ _ _ _ _
  · intro _ _ same
    exact build_perm rightDistinct same _ _ _ _ _ _
  · rw [(build_eq_ok leftBuilt).1, (build_eq_ok rightBuilt).1, compare_assemble, ← roots]
    split
    · rename_i same
      exact ⟨fun _ => same, fun _ => rfl⟩
    · rename_i different
      exact ⟨fun matched => (by cases matched), fun same => absurd same different⟩
  · rintro ⟨entity, different⟩
    refine ⟨_, ?_, mismatches_sorted, fun partition => mem_mismatches leftDistinct rightDistinct free inLeft inRight⟩
    rw [(build_eq_ok leftBuilt).1, (build_eq_ok rightBuilt).1, compare_assemble]
    exact if_neg fun same => different (roots.mp same entity)

def twoBuckets : PartitionScheme := { bucketCount := 2, positive := by decide, bounded := by decide }

def builtInTwo (entities : List CanonicalEntity) : IntegritySnapshot :=
  .assemble exampleHash ⟨42⟩ (.legacy ⟨42⟩ 9) 1 twoBuckets (tableOf entities)

def comparedMessages : List (List UInt8) :=
  snapshotMessages exampleHash 1 twoBuckets [exampleEntity 1 [1]] ++
    snapshotMessages exampleHash 1 twoBuckets [exampleEntity 1 [2]]

/-- One entity with another payload shows in its bucket and is reported once. -/
theorem divergence_localised_payload :
    ∃ buckets, (builtInTwo [exampleEntity 1 [1]]).compare (builtInTwo [exampleEntity 1 [2]]) = .ok (.mismatch buckets) ∧
      twoBuckets.partition exampleHash (exampleEntity 1 [1]).entity ∈ buckets ∧
      ((classifyDivergence [exampleEntity 1 [1]] [exampleEntity 1 [2]]).map EntityDivergence.entity).count
        (exampleEntity 1 [1]).entity = 1 := by
  have single (payload : List UInt8) : ([exampleEntity 1 payload].map CanonicalEntity.entity).Nodup :=
    nodup_singleton _
  have built (payload : List UInt8) : build exampleHash ⟨42⟩ (.legacy ⟨42⟩ 9) 1 twoBuckets
      [exampleEntity 1 payload] 100 = .ok (builtInTwo [exampleEntity 1 payload]) := by
    rw [build_of_distinct (single payload)]
    rfl
  have apart : Set.InjOn exampleHash {message | message ∈ comparedMessages} := injOn_of_pairwise (by decide +kernel)
  have different : held [exampleEntity 1 [1]] (exampleEntity 1 [1]).entity ≠
      held [exampleEntity 1 [2]] (exampleEntity 1 [1]).entity := by decide
  obtain ⟨_, _, _, localised, reported⟩ := divergence_localised (single [1]) (single [2]) (built [1]) (built [2])
    apart fun _ listed => listed
  obtain ⟨buckets, compared, _, listed⟩ := localised ⟨_, different⟩
  refine ⟨buckets, compared, (listed _).mpr ⟨_, rfl, different⟩, ?_⟩
  rw [reported, if_neg different]

end Aequora.Integrity
