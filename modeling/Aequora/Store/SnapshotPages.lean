import Aequora.Store.SnapshotReplay

/-! Reading a captured snapshot page by page. A snapshot stays as it is until one is captured under
the same identity. -/

namespace Aequora.Store

open Std Aequora.Base Aequora.Protocol List

/-! ### Pages -/

section Take
variable (maxEntities maxPayloadBytes : Nat)

def payloadBytes (start : Nat) (entities : List SnapshotEntity) : Nat :=
  entities.foldl (fun total entity => saturatingAdd total entity.payload.length) start

theorem takeEntities_isPrefix (taken bytes : Nat) (entities : List SnapshotEntity) :
    takeEntities maxEntities maxPayloadBytes taken bytes entities <+: entities := by
  induction entities generalizing taken bytes with
  | nil => exact prefix_refl _
  | cons _ _ ih =>
    unfold takeEntities
    split
    · exact nil_prefix
    · exact cons_prefix_cons.mpr ⟨rfl, ih _ _⟩

theorem takeEntities_length (within : taken ≤ maxEntities) (bytes : Nat) (entities : List SnapshotEntity) :
    taken + (takeEntities maxEntities maxPayloadBytes taken bytes entities).length ≤ maxEntities := by
  induction entities generalizing taken bytes with
  | nil => exact within
  | cons entity _ ih =>
    unfold takeEntities
    split
    · exact within
    · rename_i room
      rw [not_or] at room
      have next : taken + 1 ≤ maxEntities := Nat.lt_of_le_of_ne within room.1
      have further := ih next (saturatingAdd bytes entity.payload.length)
      rw [length_cons]
      omega

theorem takeEntities_bytes (taken : Nat) (within : bytes ≤ maxPayloadBytes) (entities : List SnapshotEntity) :
    payloadBytes bytes (takeEntities maxEntities maxPayloadBytes taken bytes entities) ≤ maxPayloadBytes := by
  induction entities generalizing taken bytes with
  | nil => exact within
  | cons _ _ ih =>
    unfold takeEntities
    split
    · exact within
    · rename_i room
      rw [not_or] at room
      exact ih (taken + 1) (Nat.le_of_not_lt room.2)

theorem takeEntities_ne_nil (some : entities ≠ []) (room : 0 < maxEntities)
    (fits : ∀ entity ∈ entities, entity.payload.length ≤ maxPayloadBytes) :
    takeEntities maxEntities maxPayloadBytes 0 0 entities ≠ [] := by
  cases entities with
  | nil => exact absurd rfl some
  | cons entity _ =>
    have first : saturatingAdd 0 entity.payload.length ≤ maxPayloadBytes := by
      rw [saturatingAdd, Nat.zero_add]
      exact Nat.le_trans (Nat.min_le_left _ _) (fits entity mem_cons_self)
    have admitted : ¬(0 = maxEntities ∨ saturatingAdd 0 entity.payload.length > maxPayloadBytes) := by omega
    rw [takeEntities, if_neg admitted]
    exact cons_ne_nil _ _

end Take

section
variable (captured : CapturedSnapshot) (offset maxEntities maxPayloadBytes : Nat)

/-- What a page says of the snapshot it was read from. -/
structure SnapshotPage.Cut (page : SnapshotPage) : Prop where
  descriptor : page.descriptor = captured.descriptor
  taken : page.entities <+: captured.entities.drop offset
  next : page.nextOffset = offset + page.entities.length
  more : page.hasMore = true ↔ page.nextOffset < captured.entities.length
  count : page.entities.length ≤ maxEntities
  bytes : payloadBytes 0 page.entities ≤ maxPayloadBytes
  advances : 0 < maxEntities → (∀ entity ∈ captured.entities, entity.payload.length ≤ maxPayloadBytes) →
    offset < captured.entities.length → page.entities ≠ []

/-- The page of a snapshot from an offset. -/
def CapturedSnapshot.pageFrom : SnapshotPage :=
  let entities := takeEntities maxEntities maxPayloadBytes 0 0 (captured.entities.drop offset)
  let nextOffset := saturatingAdd offset entities.length
  { descriptor := captured.descriptor
    entities
    nextOffset
    hasMore := nextOffset < captured.entities.length }

end

theorem InMemoryAuthoritativeStore.readSnapshot_eq {store : InMemoryAuthoritativeStore}
    (stored : store.state.snapshots[(tenant, snapshotId)]? = some captured)
    (inside : offset ≤ captured.entities.length) (maxEntities maxPayloadBytes : Nat) :
    store.readSnapshot tenant snapshotId offset maxEntities maxPayloadBytes =
      .ok (captured.pageFrom offset maxEntities maxPayloadBytes) := by
  simp only [readSnapshot, stored, gt_iff_lt, if_neg (Nat.not_lt.mpr inside)]
  rfl

theorem CapturedSnapshot.pageFrom_cut {captured : CapturedSnapshot}
    (inside : offset ≤ captured.entities.length) (room : captured.entities.length ≤ u64Max)
    (maxEntities maxPayloadBytes : Nat) :
    (captured.pageFrom offset maxEntities maxPayloadBytes).Cut captured offset maxEntities maxPayloadBytes := by
  have taken := takeEntities_isPrefix maxEntities maxPayloadBytes 0 0 (captured.entities.drop offset)
  have length := taken.length_le
  rw [length_drop] at length
  refine ⟨rfl, taken, Nat.min_eq_left (by omega), decide_eq_true_iff, ?_, ?_, ?_⟩
  · have bounded := takeEntities_length maxEntities maxPayloadBytes (Nat.zero_le _) 0 (captured.entities.drop offset)
    rwa [Nat.zero_add] at bounded
  · exact takeEntities_bytes _ _ 0 (Nat.zero_le _) _
  · intro counted fits _
    apply takeEntities_ne_nil _ _ _ counted
    · exact fun entity listed => fits entity (mem_of_mem_drop listed)
    · intro empty
      rw [drop_eq_nil_iff] at empty
      omega

theorem take_append_page {whole page : List Item} (cut : page <+: whole.drop offset) :
    whole.take offset ++ page = whole.take (offset + page.length) := by
  obtain ⟨_, parts⟩ := cut
  rw [take_add, ← parts, take_left]

/-! ### Snapshots that are kept -/

def StoreAction.Captures (key : SnapshotKey) : StoreAction → Prop
  | .createSnapshot tenant _ snapshotId => (tenant, snapshotId) = key
  | _ => False

namespace InMemoryAuthoritativeStore
variable {store : InMemoryAuthoritativeStore}

theorem commitOperation_snapshots (store : InMemoryAuthoritativeStore) (commit : CommitOperation) :
    (store.commitOperation commit).1.state.snapshots = store.state.snapshots := by
  have ended := store.commitOperation_committed commit
  generalize (store.commitOperation commit).1 = next at ended ⊢
  generalize (store.commitOperation commit).2 = result at ended
  cases ended with
  | _ => rfl

theorem step_snapshot_kept (others : ¬action.Captures key) :
    (store.step action).state.snapshots[key]? = store.state.snapshots[key]? := by
  cases action with
  | injectCommitFailure => rfl
  | commitOperation commit => exact congrArg (·[key]?) (commitOperation_snapshots store commit)
  | createSnapshot _ _ _ => exact (lookup_insert ..).trans (if_neg others)

theorem final_snapshot_kept (others : ∀ action ∈ actions, ¬action.Captures key) :
    (Run.final step store actions).state.snapshots[key]? = store.state.snapshots[key]? := by
  induction actions generalizing store with
  | nil => rfl
  | cons _ _ ih =>
    obtain ⟨now, later⟩ := forall_mem_cons.mp others
    rw [Run.final_cons, ih later, step_snapshot_kept now]

end InMemoryAuthoritativeStore

/-! ### Captures -/

section Capture
variable {state : AuthoritativeState}

namespace AuthoritativeState

theorem capture_length :
    (state.capture tenant scope snapshotId).entities.length = (state.scopeEntities tenant scope).length :=
  (perm_insertionSort _ _).length_eq

theorem mem_capture :
    entity ∈ (state.capture tenant scope snapshotId).entities ↔ entity ∈ state.scopeEntities tenant scope :=
  mem_sortByKey

theorem Journalled.capture_nodup (valid : state.Journalled) :
    ((state.capture tenant scope snapshotId).entities.map SnapshotEntity.entity).Nodup :=
  (sortedByKey_sortByKey valid.scopeEntities_nodup).nodup

theorem Journalled.scopeEntities_written (valid : state.Journalled)
    (held : item ∈ state.scopeEntities tenant scope) : ∃ change ∈ state.journal, change.snapshotEntity = item := by
  obtain ⟨⟨last, final, same⟩, -⟩ := valid.mem_scopeEntities.mp held
  exact ⟨last, mem_of_mem_filter (mem_of_getLast? final), same⟩

theorem Journalled.scopeEntities_length_le (valid : state.Journalled) :
    (state.scopeEntities tenant scope).length ≤ (state.scopeJournal (tenant, scope)).length := by
  have listed : (state.scopeEntities tenant scope).map SnapshotEntity.entity ⊆
      (state.scopeJournal (tenant, scope)).map RemoteChange.entity := by
    intro _ named
    obtain ⟨_, held, rfl⟩ := mem_map.mp named
    obtain ⟨-, change, member, same⟩ := valid.mem_scopeEntities.mp held
    exact mem_map.mpr ⟨change, member, same⟩
  simpa only [length_map] using (valid.scopeEntities_nodup.subperm listed).length_le

end AuthoritativeState

end Capture

end Aequora.Store
