import Aequora.Integrity.Divergence

/-! Repairing a replica from the entities a classification names. Nothing that only the replica
holds is ever taken away. -/

namespace Aequora.Integrity

open Std Aequora.Base Aequora.Protocol

structure PendingIntent where
  operationId : OperationId
  entity : EntityRef
  opaqueOperation : List UInt8

structure RepairApplication where
  authoritativeBase : List CanonicalEntity
  pendingIntents : List PendingIntent
  syncCursor : Cursor

def applyAuthoritativeRepair (current replacements : List CanonicalEntity) (pendingIntents : List PendingIntent)
    (syncCursor : Cursor) : RepairApplication where
  authoritativeBase := listing (replayFrom CanonicalEntity.entity id (tableOf current) replacements)
  pendingIntents
  syncCursor

def namedEntities (authority current : List CanonicalEntity) : List CanonicalEntity :=
  authority.filter fun entity =>
    decide (entity.entity ∈ (classifyDivergence authority current).map EntityDivergence.entity)

theorem held_isSome : (held entities entity).isSome = true ↔ entity ∈ entities.map CanonicalEntity.entity := by
  simp [held, List.find?_isSome]

abbrev repairFrom (authority current : List CanonicalEntity) (intents : List PendingIntent) (cursor : Cursor) :
    RepairApplication :=
  applyAuthoritativeRepair current (namedEntities authority current) intents cursor

theorem divergenceKind_ne_extraLocal (entity : CanonicalEntity) (replica : Option CanonicalEntity) :
    divergenceKind (some entity) replica ≠ some .extraLocal := by
  cases replica with
  | none => simp [divergenceKind]
  | some _ =>
    simp only [divergenceKind]
    split_ifs <;> simp

section Repair
variable {authority current : List CanonicalEntity} (known : (authority.map CanonicalEntity.entity).Nodup)
  (distinct : (current.map CanonicalEntity.entity).Nodup)
include known distinct

theorem mem_classifyDivergence : divergence ∈ classifyDivergence authority current ↔
      divergenceKind (held authority divergence.entity) (held current divergence.entity) = some divergence.kind := by
  simp only [classifyDivergence, List.mem_filterMap, Option.map_eq_some_iff]
  constructor
  · rintro ⟨entity, -, kind, found, rfl⟩
    rwa [lookup_replay_eq_held known, lookup_replay_eq_held distinct] at found
  · intro found
    refine ⟨divergence.entity, ?_, divergence.kind, ?_, rfl⟩
    · rw [mem_comparedKeys, mem_iff_lookup, mem_iff_lookup, lookup_replay_eq_held known, lookup_replay_eq_held distinct]
      cases own : held authority divergence.entity with
      | some entity => exact .inl ⟨entity, rfl⟩
      | none =>
        cases other : held current divergence.entity with
        | some entity => exact .inr ⟨entity, rfl⟩
        | none =>
          rw [own, other] at found
          cases found
    · rwa [lookup_replay_eq_held known, lookup_replay_eq_held distinct]

theorem find_namedEntities (entity : EntityRef) :
    (namedEntities authority current).find? (fun candidate => candidate.entity = entity) =
      if held authority entity = held current entity then none else held authority entity := by
  have named := @mem_classified authority current known distinct entity
  rw [namedEntities, List.find?_filter]
  split
  · rename_i same
    apply List.find?_eq_none.mpr
    intro candidate _ chosen
    simp only [decide_eq_true_eq] at chosen
    obtain ⟨listed, rfl⟩ := chosen
    exact named.mp listed same
  · rename_i different
    refine congrArg (authority.find? ·) (funext fun candidate => ?_)
    by_cases equal : candidate.entity = entity
    · simp [equal, named.mpr different]
    · simp [equal]

omit distinct in
theorem namedEntities_nodup : ((namedEntities authority current).map CanonicalEntity.entity).Nodup :=
  known.sublist (List.filter_sublist.map _)

omit known distinct in
theorem repaired_nodup (intents : List PendingIntent) (cursor : Cursor) :
    ((repairFrom authority current intents cursor).authoritativeBase.map
      CanonicalEntity.entity).Nodup := by
  rw [repairFrom, applyAuthoritativeRepair, ← replay_append]
  exact (sortedByKey_listing replay_carried).nodup

section
variable (intents : List PendingIntent) (cursor : Cursor)

theorem held_repaired (entity : EntityRef) :
    held (repairFrom authority current intents cursor).authoritativeBase entity =
      (held authority entity).or (held current entity) := by
  have filled : replayFrom CanonicalEntity.entity id (tableOf current) (namedEntities authority current) =
      replay CanonicalEntity.entity id (current ++ namedEntities authority current) := (replay_append _ _).symm
  rw [← lookup_replay_eq_held (repaired_nodup intents cursor), repairFrom, applyAuthoritativeRepair, filled, tableOf,
    replay_listing replay_carried, ← filled, lookup_replayFrom, overwrite_of_nodup (namedEntities_nodup known),
    find_namedEntities known distinct, lookup_replay_eq_held distinct]
  split
  · rename_i same
    rw [same]
    cases held current entity <;> rfl
  · rfl

theorem mem_classify_repaired {divergence : EntityDivergence} :
    divergence ∈ classifyDivergence authority (repairFrom authority current intents cursor).authoritativeBase ↔
      divergence ∈ classifyDivergence authority current ∧ divergence.kind = .extraLocal := by
  rw [mem_classifyDivergence known (repaired_nodup intents cursor), mem_classifyDivergence known distinct,
    held_repaired known distinct]
  cases held authority divergence.entity with
  | none =>
    cases held current divergence.entity with
    | none => simp [divergenceKind]
    | some _ => simp [divergenceKind, eq_comm]
  | some entity =>
    have agreed : divergenceKind (some entity) (some entity) = none := (divergenceKind_eq_none (by simp)).mpr rfl
    rw [Option.some_or, agreed]
    refine iff_of_false (fun found => by cases found) ?_
    rintro ⟨found, kind⟩
    rw [kind] at found
    exact absurd found (divergenceKind_ne_extraLocal entity _)

end

theorem extraLocal_mem_iff {entity : EntityRef} :
    ⟨entity, .extraLocal⟩ ∈ classifyDivergence authority current ↔
      entity ∈ current.map CanonicalEntity.entity ∧ entity ∉ authority.map CanonicalEntity.entity := by
  rw [mem_classifyDivergence known distinct, ← held_isSome, ← held_isSome]
  cases own : held authority entity with
  | none => cases other : held current entity <;> simp [divergenceKind]
  | some _ => simp [divergenceKind_ne_extraLocal]

end Repair

/-- A repair with all the entities that the classification names leaves nothing to classify exactly when the
authority knows every entity of the replica. Pending operations and the cursor stay as they are. -/
theorem repair_converges_iff {authority current : List CanonicalEntity}
    (known : (authority.map CanonicalEntity.entity).Nodup) (distinct : (current.map CanonicalEntity.entity).Nodup)
    (intents : List PendingIntent) (cursor : Cursor) :
    (classifyDivergence authority (repairFrom authority current intents cursor).authoritativeBase = [] ∧
        (repairFrom authority current intents cursor).pendingIntents = intents ∧
        (repairFrom authority current intents cursor).syncCursor = cursor) ↔
      ∀ entity ∈ current.map CanonicalEntity.entity, entity ∈ authority.map CanonicalEntity.entity := by
  have remaining := @mem_classify_repaired authority current known distinct intents cursor
  constructor
  · intro converged entity listed
    by_contra unknown
    have extra : ⟨entity, .extraLocal⟩ ∈ classifyDivergence authority current :=
      (extraLocal_mem_iff known distinct).mpr ⟨listed, unknown⟩
    have left := remaining.mpr ⟨extra, rfl⟩
    rw [converged.1] at left
    cases left
  · intro covered
    refine ⟨List.eq_nil_iff_forall_not_mem.mpr fun divergence left => ?_, rfl, rfl⟩
    obtain ⟨entity, _⟩ := divergence
    obtain ⟨found, rfl⟩ := remaining.mp left
    obtain ⟨listed, unknown⟩ := (extraLocal_mem_iff known distinct).mp found
    exact unknown (covered entity listed)

def exampleCursor : Cursor := .legacy ⟨42⟩ 9

def exampleIntent : PendingIntent where
  operationId := ⟨7⟩
  entity := (exampleEntity 1 []).entity
  opaqueOperation := [1, 2]

/-- A changed and a missing entity are repaired. -/
theorem repair_converges_iff_known :
    (classifyDivergence [exampleEntity 1 [1], exampleEntity 2 [2]] [exampleEntity 1 [9]]).length = 2 ∧
      classifyDivergence [exampleEntity 1 [1], exampleEntity 2 [2]]
        (repairFrom [exampleEntity 1 [1], exampleEntity 2 [2]] [exampleEntity 1 [9]] [exampleIntent]
          exampleCursor).authoritativeBase = [] := by
  refine ⟨by decide +kernel, ?_⟩
  exact ((repair_converges_iff (by decide) (by decide) [exampleIntent] exampleCursor).mpr (by decide)).1

/-- An entity that only the replica holds is named by the classification, and the repair keeps it. -/
theorem repair_keeps_extra :
    classifyDivergence [] [exampleEntity 1 [1]] = [⟨(exampleEntity 1 [1]).entity, .extraLocal⟩] ∧
      (repairFrom [] [exampleEntity 1 [1]] [] exampleCursor).authoritativeBase = [exampleEntity 1 [1]] ∧
      classifyDivergence [] (repairFrom [] [exampleEntity 1 [1]] [] exampleCursor).authoritativeBase =
        [⟨(exampleEntity 1 [1]).entity, .extraLocal⟩] := by
  decide +kernel

end Aequora.Integrity
