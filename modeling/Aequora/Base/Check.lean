import Aequora.Base.KeyOrder
import Mathlib.Data.List.Basic
import Mathlib.Data.List.Forall2

/-! Checks that stop at the first violation. A check over a list succeeds exactly
when it succeeds on every element. -/

namespace Aequora.Base

open Std List

universe u v w
variable {Failure : Type u} {Item : Type v}

/-- Fail with the given violation unless the condition holds. -/
def require (condition : Prop) [Decidable condition] (failure : Failure) : Except Failure Unit :=
  if condition then .ok () else .error failure

@[simp] theorem require_eq_ok [Decidable condition] {failure : Failure} :
    require condition failure = .ok () ↔ condition := by
  unfold require
  split <;> simp_all

@[simp] theorem require_eq_error [Decidable condition] {failure other : Failure} :
    require condition failure = .error other ↔ ¬condition ∧ failure = other := by
  unfold require
  split <;> simp_all

/-- Run a check on every element, in order, until one fails. -/
def checkAll (check : Item → Except Failure Unit) : List Item → Except Failure Unit
  | [] => .ok ()
  | item :: rest => do
    check item
    checkAll check rest

theorem bind_eq_ok_iff {second : First → Except Failure Second} :
    (first >>= second) = .ok value ↔ ∃ middle, first = .ok middle ∧ second middle = .ok value := by
  cases first with
  | error _ => simp [Bind.bind, Except.bind]
  | ok _ => simp [Bind.bind, Except.bind]

/-- A sequence fails when its first part does, or what follows it. -/
theorem bind_eq_error_iff {second : First → Except Failure Second} {failure : Failure} :
    (first >>= second) = .error failure ↔
      first = .error failure ∨ ∃ middle, first = .ok middle ∧ second middle = .error failure := by
  cases first with
  | error _ => simp [Bind.bind, Except.bind]
  | ok _ => simp [Bind.bind, Except.bind]

theorem bind_eq_ok {first second : Except Failure Unit} :
    (do first; second) = .ok () ↔ first = .ok () ∧ second = .ok () := by
  rw [bind_eq_ok_iff]
  exact ⟨fun ⟨_, passed, rest⟩ => ⟨passed, rest⟩, fun ⟨passed, rest⟩ => ⟨(), passed, rest⟩⟩

theorem check_bind_eq_ok {rest : Unit → Except Failure Value} : (check >>= rest) = .ok value ↔ check = .ok () ∧ rest () = .ok value := by
  rw [bind_eq_ok_iff]
  exact ⟨fun ⟨_, passed, following⟩ => ⟨passed, following⟩, fun ⟨passed, following⟩ => ⟨(), passed, following⟩⟩

theorem check_bind_eq_error {rest : Unit → Except Failure Value}
    {failure : Failure} :
    (check >>= rest) = .error failure ↔ check = .error failure ∨ check = .ok () ∧ rest () = .error failure := by
  rw [bind_eq_error_iff]
  exact or_congr_right ⟨fun ⟨_, passed, following⟩ => ⟨passed, following⟩,
    fun ⟨passed, following⟩ => ⟨(), passed, following⟩⟩

theorem map_eq_ok_iff {result : Except Failure First} : result.map change = .ok value ↔ ∃ first, result = .ok first ∧ change first = value := by
  cases result <;> simp [Except.map]

@[simp] theorem checkAll_eq_ok {check : Item → Except Failure Unit} :
    checkAll check items = .ok () ↔ ∀ item ∈ items, check item = .ok () := by
  induction items with
  | nil => simp [checkAll]
  | cons _ _ ih =>
    rw [checkAll, bind_eq_ok, ih, forall_mem_cons]

/-- A loop that may fail follows an abstract loop if each of its successful steps does. -/
theorem foldlM_simulates {step : State → Item → Except Failure State}
    (view : State → View) {abstract : View → Item → View} {items : List Item}
    (simulated : ∀ item ∈ items, ∀ state next, step state item = .ok next →
      view next = abstract (view state) item)
    (ended : items.foldlM step first = .ok last) :
    view last = items.foldl abstract (view first) := by
  induction items generalizing first with
  | nil => cases ended; rfl
  | cons _ _ ih =>
    rw [foldlM_cons, bind_eq_ok_iff] at ended
    obtain ⟨middle, stepped, ended⟩ := ended
    obtain ⟨head, others⟩ := forall_mem_cons.mp simulated
    rw [foldl_cons, ← head first middle stepped]
    exact ih others ended

/-- What every successful step keeps, the loop keeps. -/
theorem foldlM_keeps {State View : Type w} {step : State → Item → Except Failure State}
    (view : State → View) {items : List Item} {first last : State}
    (kept : ∀ item ∈ items, ∀ state next, step state item = .ok next → view next = view state)
    (ended : items.foldlM step first = .ok last) : view last = view first := by
  have followed : view last = items.foldl (fun held _ => held) (view first) :=
    foldlM_simulates view kept ended
  rwa [foldl_fixed] at followed

section
variable {step : State → Item → Except Failure State}

/-- The invariant rule of a loop that may fail. -/
theorem foldlM_invariant
    (holds : State → Prop) {items : List Item} (initial : holds first)
    (preserved : ∀ item ∈ items, ∀ state next, holds state → step state item = .ok next → holds next)
    (ended : items.foldlM step first = .ok last) : holds last := by
  induction items generalizing first with
  | nil => cases ended; exact initial
  | cons _ _ ih =>
    rw [foldlM_cons, bind_eq_ok_iff] at ended
    obtain ⟨middle, stepped, ended⟩ := ended
    obtain ⟨head, others⟩ := forall_mem_cons.mp preserved
    exact ih (head first middle initial stepped) others ended

/-- A loop that may fail does on a view what its steps do there, failures included. -/
theorem foldlM_map (view : State → View) (holds : State → Prop)
    (followed : ∀ state item, holds state → (step state item).map view = coarse (view state) item)
    (preserved : ∀ state item next, holds state → step state item = .ok next → holds next)
    (items : List Item) (initial : holds first) :
    (items.foldlM step first).map view = items.foldlM coarse (view first) := by
  induction items generalizing first with
  | nil => rfl
  | cons item _ ih =>
    rw [foldlM_cons, foldlM_cons, ← followed first item initial]
    cases stepped : step first item with
    | error _ => rfl
    | ok next => exact ih (preserved first item next initial stepped)

theorem exists_of_foldlM_error {items : List Item}
    {first : State} {failure : Failure} (failed : items.foldlM step first = .error failure) :
    ∃ item ∈ items, ∃ state, step state item = .error failure := by
  induction items generalizing first with
  | nil => cases failed
  | cons item _ ih =>
    rw [foldlM_cons, bind_eq_error_iff] at failed
    rcases failed with now | ⟨_, -, later⟩
    · exact ⟨item, mem_cons_self, first, now⟩
    · obtain ⟨other, member, state, stepped⟩ := ih later
      exact ⟨other, mem_cons_of_mem item member, state, stepped⟩

end

/-- A loop that checks each item before it takes it in. -/
theorem foldlM_checked {check : Item → Except Failure Unit} {take : State → Item → State}
    {items : List Item} :
    (items.foldlM (fun state item => do check item; return take state item) first) = .ok last ↔
      (∀ item ∈ items, check item = .ok ()) ∧ items.foldl take first = last := by
  induction items generalizing first with
  | nil => simp [pure, Except.pure]
  | cons item _ ih =>
    rw [foldlM_cons, bind_eq_ok_iff, forall_mem_cons, foldl_cons, and_assoc, ← ih]
    constructor
    · rintro ⟨_, taken, ended⟩
      obtain ⟨passed, same⟩ := check_bind_eq_ok.mp taken
      cases same
      exact ⟨passed, ended⟩
    · rintro ⟨passed, ended⟩
      exact ⟨take first item, check_bind_eq_ok.mpr ⟨passed, rfl⟩, ended⟩

section
variable {step : Item → Except Failure Value} {items : List Item}

theorem mapM_eq_ok : items.mapM step = .ok values ↔
      Forall₂ (fun item value => step item = .ok value) items values := by
  induction items generalizing values with
  | nil =>
    rw [forall₂_nil_left_iff]
    exact ⟨fun ended => (Except.ok.inj ended).symm, fun ended => congrArg Except.ok ended.symm⟩
  | cons _ _ ih =>
    rw [mapM_cons, bind_eq_ok_iff, forall₂_cons_left_iff]
    constructor
    · rintro ⟨value, made, ended⟩
      obtain ⟨others, collected, ended⟩ := bind_eq_ok_iff.mp ended
      exact ⟨value, others, made, ih.mp collected, (Except.ok.inj ended).symm⟩
    · rintro ⟨value, others, made, collected, rfl⟩
      exact ⟨value, made, bind_eq_ok_iff.mpr ⟨others, ih.mpr collected, rfl⟩⟩

theorem exists_of_mem_mapM (made : items.mapM step = .ok values) (member : value ∈ values) :
    ∃ item ∈ items, step item = .ok value := by
  have pairs := mapM_eq_ok.mp made
  clear made
  induction pairs with
  | nil => cases member
  | cons one _ ih =>
    rcases mem_cons.mp member with rfl | later
    · exact ⟨_, mem_cons_self, one⟩
    · obtain ⟨item, listed, made⟩ := ih later
      exact ⟨item, mem_cons_of_mem _ listed, made⟩

end

section Map
variable [Ord Key] [TransOrd Key] [LawfulEqOrd Key]

theorem checkAll_toList_eq_ok {table : ExtTreeMap Key Value} :
    checkAll check table.toList = .ok () ↔
      ∀ key value, table[key]? = some value → check (key, value) = .ok () := by
  simp only [checkAll_eq_ok, Prod.forall, ExtTreeMap.mem_toList_iff_getElem?_eq_some]

theorem checkAll_keys_eq_ok {table : ExtTreeMap Key Value} :
    checkAll check table.keys = .ok () ↔ ∀ key ∈ table, check key = .ok () := by
  simp only [checkAll_eq_ok, ExtTreeMap.mem_keys]

end Map

end Aequora.Base
