import Aequora.Base.Replay
import Mathlib.Logic.Function.Basic

/-! Replay onto a table that marks the numbers of the events it has applied, so events that share a
number hide each other. -/

namespace Aequora.Base

open Std Function

universe u v w
variable {Event : Type u} {Key : Type v} {Value : Type w} [DecidableEq Key]

section Overwrite
variable (key : Event → Key) (value : Event → Value)

/-- The events overwrite their keys in order. -/
def overwrite (table : Key → Option Value) (events : List Event) : Key → Option Value :=
  events.foldl (fun built event => update built (key event) (some (value event))) table

variable {key value}

section
variable (table : Key → Option Value)

@[simp] theorem overwrite_nil : overwrite key value table [] = table := rfl

theorem overwrite_cons (event : Event) (rest : List Event) :
    overwrite key value table (event :: rest) =
      overwrite key value (update table (key event) (some (value event))) rest := rfl

theorem overwrite_append (first second : List Event) :
    overwrite key value table (first ++ second) =
      overwrite key value (overwrite key value table first) second :=
  List.foldl_append

end

theorem overwrite_other (unwritten : ∀ event ∈ events, key event ≠ target) :
    overwrite key value table events target = table target := by
  induction events generalizing table with
  | nil => rfl
  | cons _ _ ih =>
    obtain ⟨head, others⟩ := List.forall_mem_cons.mp unwritten
    rw [overwrite_cons, ih others, update_of_ne head.symm]

theorem overwrite_of_nodup (distinct : (events.map key).Nodup) (target : Key) :
    overwrite key id table events target = (events.find? fun event => key event = target).or (table target) := by
  induction events generalizing table with
  | nil => rfl
  | cons event rest ih =>
    rw [List.map_cons, List.nodup_cons] at distinct
    rw [overwrite_cons, ih distinct.2, List.find?_cons]
    by_cases same : key event = target
    · have absent : rest.find? (fun event => key event = target) = none := by
        apply List.find?_eq_none.mpr
        intro _ listed equal
        exact distinct.1 (same.trans (of_decide_eq_true equal).symm ▸ List.mem_map_of_mem listed)
      rw [absent, same, update_self]
      simp
    · rw [update_of_ne (Ne.symm same)]
      simp [same]

/-- Overwriting the part of a table seen through an injection is overwriting the part. -/
theorem overwrite_embed [DecidableEq Whole] (embed : Key → Whole)
    (injective : Injective embed) (table : Whole → Option Value) (events : List Event)
    (target : Key) :
    overwrite (fun event => embed (key event)) value table events (embed target) =
      overwrite key value (fun part => table (embed part)) events target := by
  induction events generalizing table with
  | nil => rfl
  | cons _ _ ih =>
    rw [overwrite_cons, overwrite_cons, ih]
    congr 1
    exact update_comp_eq_of_injective table injective _ _

/-- Replay into a map is overwriting its lookup function. -/
theorem lookup_replayFrom [Ord Key] [TransOrd Key] [LawfulEqOrd Key] (table : ExtTreeMap Key Value)
    (events : List Event) (target : Key) :
    (replayFrom key value table events)[target]? =
      overwrite key value (fun part => table[part]?) events target := by
  induction events generalizing table with
  | nil => rfl
  | cons event _ ih =>
    rw [overwrite_cons]
    refine (ih (table.insert (key event) (value event))).trans ?_
    congr 1
    funext part
    rw [lookup_insert, update_apply]
    simp only [eq_comm]

end Overwrite

/-- A table with the numbers of the events applied to it. -/
@[ext]
structure Marked (Key : Type v) (Value : Type w) where
  table : Key → Option Value
  marks : Nat → Bool

section Once
variable (key : Event → Key) (value : Event → Value) (number : Event → Nat)

/-- Apply an event unless its number is marked. -/
def Marked.once (marked : Marked Key Value) (event : Event) : Marked Key Value :=
  if marked.marks (number event) then marked
  else
    { table := update marked.table (key event) (some (value event))
      marks := update marked.marks (number event) true }

/-- The events whose numbers are not marked. -/
def Marked.unmarked (marked : Marked Key Value) (events : List Event) : List Event :=
  events.filter fun event => !marked.marks (number event)

variable {key value number}

theorem Marked.foldl_once {events : List Event} (distinct : (events.map number).Nodup) (marked : Marked Key Value) :
    events.foldl (once key value number) marked =
      { table := overwrite key value marked.table (marked.unmarked number events)
        marks := fun count => marked.marks count || decide (count ∈ events.map number) } := by
  induction events generalizing marked with
  | nil => simp [Marked.unmarked]
  | cons event rest ih =>
    rw [List.map_cons, List.nodup_cons] at distinct
    obtain ⟨fresh, later⟩ := distinct
    rw [List.foldl_cons, ih later]
    by_cases held : marked.marks (number event) = true
    · have kept : once key value number marked event = marked := by simp [once, held]
      rw [kept]
      ext1
      · simp [Marked.unmarked, held]
      · funext count
        by_cases same : count = number event
        · simp [same, held]
        · simp [same]
    · have applied : once key value number marked event =
          { table := update marked.table (key event) (some (value event))
            marks := update marked.marks (number event) true } := by simp [once, held]
      -- The mark just set belongs to no later event.
      have unmarked : Marked.unmarked number (once key value number marked event) rest =
          marked.unmarked number rest := by
        rw [applied]
        apply List.filter_congr
        intro other member
        have different : number other ≠ number event :=
          fun same => fresh (List.mem_map.mpr ⟨other, member, same⟩)
        simp [update_of_ne different]
      rw [unmarked, applied]
      ext1
      · simp [Marked.unmarked, held, overwrite_cons]
      · funext count
        by_cases same : count = number event
        · simp [same]
        · simp [same]

omit [DecidableEq Key] in
theorem Marked.unmarked_eq {marked : Marked Key Value}
    (fresh : ∀ event ∈ events, marked.marks (number event) = false) :
    marked.unmarked number events = events := by
  apply List.filter_eq_self.mpr
  intro event member
  simp [fresh event member]

end Once

end Aequora.Base
