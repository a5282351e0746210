import Aequora.Base.Replay
import Mathlib.Data.List.Sort

/-! Records that carry their own key, listed in key order. Such a list and the table it
fills determine each other. -/

namespace Aequora.Base

open Std ExtTreeMap

universe u v
variable {Item : Type u} {Key : Type v} [Ord Key] (key : Item → Key)

/-- The items in the order of their keys, items of equal keys in their given order. -/
def sortByKey (items : List Item) : List Item :=
  items.insertionSort fun first second => (compare (key first) (key second)).isLE = true

/-- The values of a table in the order of their keys. -/
def listing [TransOrd Key] (table : ExtTreeMap Key Item) : List Item := table.toList.map Prod.snd

/-- Strictly ordered by key. -/
def SortedByKey (items : List Item) : Prop :=
  items.Pairwise fun first second => compare (key first) (key second) = .lt

section Order
variable {key} [TransOrd Key] [LawfulEqOrd Key]

omit [TransOrd Key] in
theorem SortedByKey.nodup (sorted : SortedByKey key items) : (items.map key).Nodup := by
  apply List.pairwise_map.mpr
  refine List.Pairwise.imp (fun {first second} before same => ?_) sorted
  rw [same, ReflOrd.compare_self] at before
  cases before

theorem SortedByKey.ext (left : SortedByKey key first)
    (right : SortedByKey key second) (same : ∀ item, item ∈ first ↔ item ∈ second) : first = second := by
  have permuted : first.Perm second :=
    (List.perm_ext_iff_of_nodup left.nodup.of_map right.nodup.of_map).mpr same
  refine permuted.eq_of_pairwise (fun one other _ _ before after => ?_) left right
  have reversed := OrientedCmp.gt_of_lt after
  rw [before] at reversed
  cases reversed

omit [TransOrd Key] [LawfulEqOrd Key] in
theorem mem_sortByKey : item ∈ sortByKey key items ↔ item ∈ items :=
  (List.perm_insertionSort _ items).mem_iff

omit [LawfulEqOrd Key] in
theorem pairwise_sortByKey (items : List Item) : (sortByKey key items).Pairwise
    fun first second => (compare (key first) (key second)).isLE = true := by
  have : Std.Total fun first second : Item => (compare (key first) (key second)).isLE = true :=
    ⟨fun first second => by
      cases found : compare (key first) (key second) with
      | lt => exact .inl rfl
      | eq => exact .inl rfl
      | gt => exact .inr (by rw [OrientedCmp.lt_of_gt found]; rfl)⟩
  have : IsTrans Item fun first second => (compare (key first) (key second)).isLE = true :=
    ⟨fun _ _ _ => TransCmp.isLE_trans⟩
  exact List.pairwise_insertionSort _ items

theorem sortedByKey_sortByKey (distinct : (items.map key).Nodup) : SortedByKey key (sortByKey key items) := by
  have unequal : (sortByKey key items).Pairwise fun first second => key first ≠ key second := by
    apply List.pairwise_map.mp
    exact ((List.perm_insertionSort _ items).map key).nodup_iff.mpr distinct
  refine ((pairwise_sortByKey items).and unequal).imp fun {first second} ⟨before, different⟩ => ?_
  cases found : compare (key first) (key second) with
  | lt => rfl
  | eq => exact absurd (LawfulEqOrd.eq_of_compare found) different
  | gt => rw [found] at before; cases before

end Order

section Table
variable {key} [TransOrd Key] [LawfulEqOrd Key] {table : ExtTreeMap Key Item}

theorem mem_listing_of_lookup {target : Key} (found : table[target]? = some item) : item ∈ listing table :=
  List.mem_map.mpr ⟨(target, item), mem_toList_iff_getElem?_eq_some.mpr found, rfl⟩

section
variable (carried : ∀ target item, table[target]? = some item → key item = target)
include carried

theorem mem_listing
    {item : Item} : item ∈ listing table ↔ table[key item]? = some item := by
  refine ⟨fun listed => ?_, mem_listing_of_lookup⟩
  obtain ⟨⟨target, found⟩, member, rfl⟩ := List.mem_map.mp listed
  have stored := mem_toList_iff_getElem?_eq_some.mp member
  rw [carried target found stored]
  exact stored

theorem sortedByKey_listing :
    SortedByKey key (listing table) := by
  apply List.pairwise_map.mpr
  refine ordered_keys_toList.imp_of_mem fun {first second} left right before => ?_
  rw [carried _ _ (mem_toList_iff_getElem?_eq_some.mp left),
    carried _ _ (mem_toList_iff_getElem?_eq_some.mp right)]
  exact before

end

variable [DecidableEq Key]

theorem replay_carried (target : Key) (item : Item)
    (found : (replay key id items)[target]? = some item) : key item = target := by
  rw [lookup_replay] at found
  obtain ⟨_, final, rfl⟩ := Option.map_eq_some_iff.mp found
  exact of_decide_eq_true (List.mem_filter.mp (List.mem_of_getLast? final)).2

theorem listing_replay (sorted : SortedByKey key items) : listing (replay key id items) = items := by
  refine (sortedByKey_listing replay_carried).ext sorted fun item => ?_
  rw [mem_listing replay_carried]
  constructor
  · intro found
    rw [lookup_replay] at found
    obtain ⟨_, final, rfl⟩ := Option.map_eq_some_iff.mp found
    exact (List.mem_filter.mp (List.mem_of_getLast? final)).1
  · exact lookup_replay_of_nodup sorted.nodup

theorem replay_listing (carried : ∀ target item, table[target]? = some item → key item = target) :
    replay key id (listing table) = table := by
  apply ext_getElem?
  intro target
  cases found : table[target]? with
  | some item =>
    cases carried target item found
    exact lookup_replay_of_nodup (sortedByKey_listing carried).nodup ((mem_listing carried).mpr found)
  | none =>
    apply Option.eq_none_iff_forall_ne_some.mpr
    intro item stored
    have listed : item ∈ listing table := by
      rw [← listing_replay (sortedByKey_listing carried), mem_listing replay_carried,
        replay_carried target item stored]
      exact stored
    rw [mem_listing carried, replay_carried target item stored, found] at listed
    cases listed

theorem replay_eq_iff (sorted : SortedByKey key items)
    (carried : ∀ target item, table[target]? = some item → key item = target) :
    replay key id items = table ↔ items = listing table := by
  constructor
  · intro filled
    rw [← filled, listing_replay sorted]
  · intro listed
    rw [listed, replay_listing carried]

end Table

end Aequora.Base
