import Aequora.Base.MarkedReplay
import Aequora.Protocol.Types
import Mathlib.Data.Finset.Insert

/-! Tables that hold the entities of many scopes, and what each operation on them means for one
scope. -/

namespace Aequora.Store

open Std Aequora.Base Aequora.Protocol

abbrev ScopeTable := ExtTreeMap (SyncScopeId × EntityRef) SnapshotEntity

namespace ScopeTable
def part (table : ScopeTable) (scope : SyncScopeId) : EntityRef → Option SnapshotEntity :=
  fun entity => table[(scope, entity)]?

def put (table : ScopeTable) (scope : SyncScopeId) (entities : List SnapshotEntity) : ScopeTable :=
  replayFrom (fun entity : SnapshotEntity => (scope, entity.entity)) id table entities

def deleteScope (table : ScopeTable) (scope : SyncScopeId) : ScopeTable :=
  table.filter fun key _ => key.1 != scope

def copyScope (table source : ScopeTable) (scope : SyncScopeId) : ScopeTable :=
  table ∪ source.filter fun key _ => key.1 == scope

theorem part_insert (entity : EntityRef) (value : SnapshotEntity) :
    part (table.insert (owner, entity) value) scope =
      if owner = scope then Function.update (part table scope) entity (some value)
      else part table scope := by
  funext target
  by_cases same : owner = scope
  · simp [part, lookup_insert, same, Function.update_apply, eq_comm]
  · simp [part, lookup_insert, same]

theorem part_put (entities : List SnapshotEntity) :
    part (put table owner entities) scope =
      if owner = scope then overwrite SnapshotEntity.entity id (part table scope) entities
      else part table scope := by
  funext target
  rw [part, put, lookup_replayFrom]
  by_cases same : owner = scope
  · subst scope
    rw [if_pos rfl]
    exact overwrite_embed (fun entity => (owner, entity)) (fun _ _ => congrArg Prod.snd) _ _ _
  · rw [if_neg same]
    exact overwrite_other fun _ _ equal => same (congrArg Prod.fst equal)

theorem part_deleteScope :
    part (deleteScope table owner) scope = if owner = scope then fun _ => none else part table scope := by
  funext target
  rw [part, deleteScope, ExtTreeMap.getElem?_filter']
  by_cases same : owner = scope
  · simp [same]
  · have kept : (scope != owner) = true := by simpa using Ne.symm same
    cases found : table[(scope, target)]? <;> simp [part, found, same, kept, Option.filter]

theorem part_copyScope : part (copyScope (deleteScope table owner) source owner) scope =
      if owner = scope then part source scope else part table scope := by
  funext target
  have deleted : (deleteScope table owner)[(scope, target)]? =
      (if owner = scope then fun _ => none else part table scope) target := congrFun part_deleteScope target
  rw [part, copyScope, ExtTreeMap.getElem?_union, deleted, ExtTreeMap.getElem?_filter']
  by_cases same : owner = scope
  · cases found : source[(scope, target)]? <;> simp [part, found, same, Option.filter]
  · have other : (scope == owner) = false := by simpa using Ne.symm same
    cases found : source[(scope, target)]? <;> simp [same, other, Option.filter]

end ScopeTable

structure AppliedTables where
  entities : ScopeTable
  applied : Finset (SyncScopeId × Sequence)

namespace AppliedTables

/-- Apply a change to a scope unless its marker is there. -/
def applyOnce (tables : AppliedTables) (scope : SyncScopeId) (change : RemoteChange) : AppliedTables :=
  if (scope, change.sequence) ∈ tables.applied then tables
  else
    { entities := tables.entities.insert (scope, change.entity) change.snapshotEntity
      applied := insert (scope, change.sequence) tables.applied }

def content (tables : AppliedTables) (scope : SyncScopeId) : Marked EntityRef SnapshotEntity where
  table := tables.entities.part scope
  marks sequence := decide ((scope, sequence) ∈ tables.applied)

theorem content_table (entities : ScopeTable) (applied : Finset (SyncScopeId × Sequence)) (scope : SyncScopeId) :
    content { entities, applied } scope =
      { table := entities.part scope, marks := fun sequence => decide ((scope, sequence) ∈ applied) } := rfl

theorem applyOnce_content (tables : AppliedTables) (owner scope : SyncScopeId) (change : RemoteChange) :
    (tables.applyOnce owner change).content scope =
      if owner = scope then
        Marked.once RemoteChange.entity RemoteChange.snapshotEntity RemoteChange.sequence
          (tables.content scope) change
      else tables.content scope := by
  by_cases held : (owner, change.sequence) ∈ tables.applied
  · by_cases same : owner = scope
    · simp [applyOnce, Marked.once, content, ← same, held]
    · simp [applyOnce, held, same]
  · by_cases same : owner = scope
    · subst scope
      rw [if_pos rfl]
      ext1
      · simp [applyOnce, Marked.once, content, held, ScopeTable.part_insert]
      · funext sequence
        by_cases mine : sequence = change.sequence <;>
          simp [applyOnce, Marked.once, content, held, mine]
    · have other : scope ≠ owner := Ne.symm same
      rw [if_neg same]
      ext1
      · simp [applyOnce, content, held, ScopeTable.part_insert, same]
      · simp [applyOnce, content, held, other]

end AppliedTables

end Aequora.Store
