import Aequora.Base.Word
import Mathlib.Data.List.Chain

/-! Logs numbered by a saturating counter: numbers rise by one until the counter is full and repeat
from then on. -/

namespace Aequora.Base

universe u
variable {Entry : Type u} (number : Entry → Nat)

/-- Each entry carries the saturating successor of the number before it. -/
def Successive (log : List Entry) : Prop :=
  log.IsChain fun left right => number right = saturatingAdd (number left) 1

variable {number}

theorem le_saturatingAdd_one (within : value ≤ u64Max) : value ≤ saturatingAdd value 1 := by
  simp only [saturatingAdd]
  omega

theorem saturatingAdd_one_mono (ordered : left ≤ right) : saturatingAdd left 1 ≤ saturatingAdd right 1 := by
  simp only [saturatingAdd]
  omega

theorem Successive.head_le (successive : Successive number (head :: rest)) (within : number head ≤ u64Max) :
    ∀ entry ∈ rest, number head ≤ number entry := by
  induction rest generalizing head with
  | nil => simp
  | cons next _ ih =>
    obtain ⟨step, later⟩ := List.isChain_cons_cons.mp successive
    have bound : number next ≤ u64Max := by rw [step]; exact saturatingAdd_le _ _
    have first : number head ≤ number next := by rw [step]; exact le_saturatingAdd_one within
    intro entry member
    rcases List.mem_cons.mp member with rfl | inside
    · exact first
    · exact first.trans (ih later bound entry inside)

variable {log : List Entry}

section
variable (successive : Successive number log) (within : ∀ entry ∈ log, number entry ≤ u64Max) (limit : Nat)
include successive within limit

theorem Successive.filter_gt : Successive number (log.filter fun entry => decide (limit < number entry)) := by
  induction log with
  | nil => exact .nil
  | cons head rest ih =>
    by_cases beyond : limit < number head
    · have all : ∀ entry ∈ rest, limit < number entry := fun entry member =>
        beyond.trans_le (successive.head_le (within head List.mem_cons_self) entry member)
      rw [List.filter_eq_self.mpr (by simpa [beyond] using all)]
      exact successive
    · rw [List.filter_cons_of_neg (by simpa using beyond)]
      exact ih successive.tail fun entry member => within entry (List.mem_cons_of_mem head member)

theorem Successive.filter_le : Successive number (log.filter fun entry => decide (number entry ≤ limit)) := by
  induction log with
  | nil => exact .nil
  | cons head rest ih =>
    have later := ih successive.tail fun entry member => within entry (List.mem_cons_of_mem head member)
    by_cases kept : number head ≤ limit
    · rw [List.filter_cons_of_pos (by simpa using kept)]
      cases rest with
      | nil => exact .singleton head
      | cons next rest =>
        obtain ⟨step, tail⟩ := List.isChain_cons_cons.mp successive
        by_cases following : number next ≤ limit
        · rw [List.filter_cons_of_pos (by simpa using following)] at later ⊢
          exact List.isChain_cons_cons.mpr ⟨step, later⟩
        · have bound := within next (List.mem_cons_of_mem head List.mem_cons_self)
          have none : (next :: rest).filter (fun entry => decide (number entry ≤ limit)) = [] := by
            refine List.filter_eq_nil_iff.mpr fun entry member => ?_
            have : number next ≤ number entry := by
              rcases List.mem_cons.mp member with rfl | inside
              · exact le_rfl
              · exact Successive.head_le tail bound entry inside
            simp only [decide_eq_true_eq]
            omega
          rw [none]
          exact .singleton head
    · rw [List.filter_cons_of_neg (by simpa using kept)]
      exact later

end

theorem Successive.snoc (successive : Successive number log)
    (next : ∀ last, log.getLast? = some last → number entry = saturatingAdd (number last) 1) :
    Successive number (log ++ [entry]) := by
  refine List.isChain_append.mpr ⟨successive, .singleton entry, ?_⟩
  intro last found first same
  obtain rfl : entry = first := by simpa using same
  exact next last found

end Aequora.Base
