import Std.Data.ExtTreeMap.Lemmas
import Mathlib.Data.Finset.Basic

/-! Ordered-map keys. Lookups in an extensional tree map are decided by equality of keys. -/

namespace Aequora.Base

open Std ExtTreeMap

universe u v

/-- Comparing through an injective projection identifies only equal keys. -/
theorem lawfulEq_compareOn [Ord Raw] [LawfulEqOrd Raw]
    (project : Key → Raw) (injective : ∀ left right, project left = project right → left = right) :
    LawfulEqCmp (compareOn project) where
  compare_self := ReflOrd.compare_self (α := Raw)
  eq_of_compare same := injective _ _ (LawfulEqOrd.eq_of_compare (α := Raw) same)

section
variable {Left : Type u} {Right : Type v}

/-- Pairs are ordered by their first component, then by their second. -/
instance pairOrd [Ord Left] [Ord Right] : Ord (Left × Right) := lexOrd

instance pairTransOrd [Ord Left] [Ord Right] [TransOrd Left] [TransOrd Right] :
    TransOrd (Left × Right) :=
  inferInstanceAs (TransCmp (compareLex (compareOn Prod.fst) (compareOn Prod.snd)))

instance pairLawfulEqOrd [Ord Left] [Ord Right] [LawfulEqOrd Left]
    [LawfulEqOrd Right] : LawfulEqOrd (Left × Right) where
  compare_self {pair} :=
    Ordering.then_eq_eq.mpr ⟨ReflOrd.compare_self (α := Left), ReflOrd.compare_self (α := Right)⟩
  eq_of_compare same := by
    obtain ⟨first, second⟩ := Ordering.then_eq_eq.mp same
    exact Prod.ext (LawfulEqOrd.eq_of_compare first) (LawfulEqOrd.eq_of_compare second)

end

/-- Updating a table under some keys has the effect of one update under each of them, if the keys are
distinct or a second update adds nothing. -/
theorem foldl_pointwise [DecidableEq Key] (look : Table → Key → Seen)
    (effect : Seen → Seen)
    (pointwise : ∀ table key other,
      look (update table key) other = if key = other then effect (look table other) else look table other)
    {keys : List Key} (once : keys.Nodup ∨ ∀ seen, effect (effect seen) = effect seen) (table : Table) (key : Key) :
    look (keys.foldl update table) key = if key ∈ keys then effect (look table key) else look table key := by
  induction keys generalizing table with
  | nil => simp
  | cons first _ ih =>
    rw [List.foldl_cons, ih (once.imp_left (List.nodup_cons.mp · |>.2)), pointwise]
    by_cases here : first = key
    · subst here
      rcases once with distinct | again
      · simp [(List.nodup_cons.mp distinct).1]
      · simp [again]
    · simp [here, Ne.symm here]

section Map
variable {Key : Type u} {Value : Type v} [Ord Key] [TransOrd Key] [LawfulEqOrd Key] [DecidableEq Key]

section
variable (table : ExtTreeMap Key Value) (key other : Key)

theorem lookup_insert (value : Value) :
    (table.insert key value)[other]? = if key = other then some value else table[other]? := by
  simp [getElem?_insert]

theorem lookup_erase :
    (table.erase key)[other]? = if key = other then none else table[other]? := by
  simp [getElem?_erase]

end

variable {table : ExtTreeMap Key Value} {key : Key}

theorem insert_of_lookup (found : table[key]? = some value) : table.insert key value = table := by
  apply ext_getElem?
  intro _
  rw [lookup_insert]
  split
  · rename_i same
    rw [← same, found]
  · rfl

theorem lookup_foldl_erase_eq (table : ExtTreeMap Key Value) (keys : List Key) (key : Key) :
    (keys.foldl erase table)[key]? = if key ∈ keys then none else table[key]? := by
  exact foldl_pointwise (fun table key => table[key]?) (fun _ => none) (fun _ _ _ => lookup_erase ..)
    (.inr fun _ => rfl) table key

theorem lookup_foldl_erase {keys : List Key} (kept : key ∉ keys) :
    (keys.foldl erase table)[key]? = table[key]? := by
  rw [lookup_foldl_erase_eq, if_neg kept]

/-- Writing under all keys of a list, when what is written looks the same under each of them. -/
theorem lookup_foldl_insert (look : Value → Seen)
    {step : ExtTreeMap Key Value → Key → ExtTreeMap Key Value}
    (writes : ∀ table key, ∃ value, step table key = table.insert key value ∧ look value = seen)
    (table : ExtTreeMap Key Value) (keys : List Key) (key : Key) :
    ((keys.foldl step table)[key]?).map look = if key ∈ keys then some seen else (table[key]?).map look := by
  induction keys generalizing table with
  | nil => simp
  | cons first rest ih =>
    obtain ⟨_, written, same⟩ := writes table first
    rw [List.foldl_cons, ih, written, lookup_insert]
    by_cases later : key ∈ rest
    · simp [later]
    · by_cases found : first = key
      · simp [later, found, same]
      · simp [later, found, Ne.symm found]

theorem lookup_foldl_insert_const (table : ExtTreeMap Key Value) (keys : List Key) (value : Value) (key : Key) :
    (keys.foldl (fun built next => built.insert next value) table)[key]? =
      if key ∈ keys then some value else table[key]? := by
  simpa only [Option.map_id'] using
    lookup_foldl_insert (fun stored => stored) (fun _ _ => ⟨value, rfl, rfl⟩) table keys key

/-- The entries of a table of pairs whose first component is given. -/
def slice {Owner : Type u} [Ord Owner] [TransOrd Owner] (table : ExtTreeMap (Owner × Key) Value)
    (owner : Owner) (key : Key) : Option Value :=
  table[(owner, key)]?

section Slice
variable [Ord Owner] [TransOrd Owner] [LawfulEqOrd Owner] [DecidableEq Owner]

theorem slice_insert_self (table : ExtTreeMap (Owner × Key) Value) (owner : Owner) (key : Key) (value : Value) :
    slice (table.insert (owner, key) value) owner =
      Function.update (slice table owner) key (some value) := by
  funext other
  rw [slice, lookup_insert, Function.update_apply]
  by_cases same : other = key
  · rw [if_pos (by rw [same]), if_pos same]
  · rw [if_neg fun equal => same (Prod.mk.inj equal).2.symm, if_neg same, slice]

theorem slice_insert_other (table : ExtTreeMap (Owner × Key) Value)
    (different : other ≠ owner) (key : Key) (value : Value) :
    slice (table.insert (owner, key) value) other = slice table other := by
  funext asked
  rw [slice, lookup_insert, if_neg fun equal => different (Prod.mk.inj equal).1.symm, slice]

end Slice

omit [LawfulEqOrd Key] [DecidableEq Key] in
theorem mem_iff_lookup : key ∈ table ↔ ∃ value, table[key]? = some value := by
  rw [mem_iff_isSome_getElem?, Option.isSome_iff_exists]

omit [LawfulEqOrd Key] [DecidableEq Key] in
theorem values_eq_map_toList (table : ExtTreeMap Key Value) : table.values = table.toList.map Prod.snd := by
  obtain ⟨entries⟩ := table
  induction entries using ExtDTreeMap.inductionOn with
  | mk tree =>
    change tree.inner.values = (DTreeMap.Internal.Impl.Const.toList tree.inner).map Prod.snd
    rw [DTreeMap.Internal.Impl.values_eq_map_snd, DTreeMap.Internal.Impl.Const.toList_eq_toListModel_map,
      List.map_map]
    rfl

omit [DecidableEq Key] in
theorem mem_values : value ∈ table.values ↔ ∃ key : Key, table[key]? = some value := by
  simp [values_eq_map_toList, mem_toList_iff_getElem?_eq_some]

theorem mem_of_lookup_ofList (found : (ofList entries : ExtTreeMap Key Value)[key]? = some value) :
    (key, value) ∈ entries := by
  have general : ∀ (rest : List (Key × Value)) (table : ExtTreeMap Key Value),
      (rest.foldl (fun built entry => built.insert entry.1 entry.2) table)[key]? = some value →
        (key, value) ∈ rest ∨ table[key]? = some value := by
    intro rest
    induction rest with
    | nil => intro table present; exact .inr present
    | cons entry _ ih =>
      intro table present
      rcases ih (table.insert entry.1 entry.2) present with later | earlier
      · exact .inl (List.mem_cons_of_mem _ later)
      · rw [lookup_insert] at earlier
        split at earlier
        · rename_i same
          cases earlier
          exact .inl (by simp [← same])
        · exact .inr earlier
  rw [ofList_eq_foldl] at found
  rcases general entries ∅ found with listed | impossible
  · exact listed
  · simp at impossible

end Map

end Aequora.Base
