import Mathlib.Data.List.Basic
import Mathlib.Data.Nat.Basic
import Mathlib.Order.MinMax

/-! Logs whose entries stand at increasing positions, and the window of entries between two
positions, the lower one excluded. -/

namespace Aequora.Base

open List

universe u
variable {Entry : Type u} (position : Entry → Nat)

def Increasing (log : List Entry) : Prop := log.Pairwise fun earlier later => position earlier < position later

def window (log : List Entry) (low high : Nat) : List Entry :=
  log.filter fun entry => low < position entry ∧ position entry ≤ high

/-- The entries after a position. -/
def beyond (log : List Entry) (low : Nat) : List Entry := log.filter fun entry => low < position entry

section
variable (low : Nat) (entries : List Entry)

/-- Where a reader stands after reading some entries from a position. -/
def reached : Nat := entries.foldl (fun _ entry => position entry) low

theorem reached_eq_or_mem : (entries = [] ∧ reached position low entries = low) ∨
      ∃ entry ∈ entries, reached position low entries = position entry := by
  induction entries generalizing low with
  | nil => exact .inl ⟨rfl, rfl⟩
  | cons first _ ih =>
    right
    rcases ih (position first) with ⟨_, stays⟩ | ⟨entry, member, moved⟩
    · exact ⟨first, mem_cons_self, stays⟩
    · exact ⟨entry, mem_cons_of_mem first member, moved⟩

theorem reached_eq_getLast : reached position low entries = entries.getLast?.elim low position := by
  induction entries generalizing low with
  | nil => rfl
  | cons first rest ih =>
    rw [getLast?_cons]
    refine (ih (position first)).trans ?_
    cases rest.getLast? with
    | none => rfl
    | some _ => rfl

end

theorem window_cons (first : Entry) (rest : List Entry) (low high : Nat) :
    window position (first :: rest) low high =
      if low < position first ∧ position first ≤ high then first :: window position rest low high
      else window position rest low high := by
  simp only [window, filter_cons, decide_eq_true_eq]

variable {position}

variable {log : List Entry}

theorem Increasing.le_reached (increasing : Increasing position entries) (member : entry ∈ entries) : position entry ≤ reached position low entries := by
  induction entries generalizing low with
  | nil => cases member
  | cons first rest ih =>
    obtain ⟨ahead, increasing⟩ := pairwise_cons.mp increasing
    rcases mem_cons.mp member with rfl | later
    · -- Nothing follows, or what is reached lies ahead of the first entry.
      rcases reached_eq_or_mem position (position entry) rest with ⟨_, stays⟩ | ⟨last, listed, moved⟩
      · exact le_of_eq stays.symm
      · exact moved.symm ▸ le_of_lt (ahead last listed)
    · exact ih increasing later

theorem le_reached_start (above : ∀ entry ∈ entries, low < position entry) : low ≤ reached position low entries := by
  rcases reached_eq_or_mem position low entries with ⟨_, stays⟩ | ⟨last, listed, moved⟩
  · exact le_of_eq stays.symm
  · exact moved.symm ▸ le_of_lt (above last listed)

theorem window_self (log : List Entry) (low : Nat) : window position log low low = [] := by
  apply filter_eq_nil_iff.mpr
  intro _ _
  simp only [decide_eq_true_eq, not_and]
  exact Nat.not_le_of_lt

theorem window_eq_nil (above : ∀ entry ∈ log, high < position entry) : window position log low high = [] := by
  apply filter_eq_nil_iff.mpr
  intro entry member
  simp only [decide_eq_true_eq, not_and]
  exact fun _ => not_le.mpr (above entry member)

theorem beyond_beyond (ordered : low ≤ high) :
    beyond position (beyond position log low) high = beyond position log high := by
  rw [beyond, beyond, filter_filter]
  apply filter_congr
  intro _ _
  rw [Bool.and_eq_left_iff_imp, decide_eq_true_eq, decide_eq_true_eq]
  exact lt_of_le_of_lt ordered

theorem head_le_iff :
    max ((log.map position).max?.getD low) low ≤ bound ↔ low ≤ bound ∧ ∀ entry ∈ log, position entry ≤ bound := by
  rw [max_le_iff, and_comm]
  refine and_congr_right fun above => ?_
  cases highest : (log.map position).max? with
  | none =>
    rw [List.max?_eq_none_iff, map_eq_nil_iff] at highest
    simp [highest, above]
  | some _ =>
    rw [Option.getD_some, List.max?_le_iff highest]
    exact forall_mem_map

theorem head_beyond (ordered : low ≤ high) :
    max (((beyond position log low).map position).max?.getD high) high =
      max ((log.map position).max?.getD high) high := by
  apply eq_of_forall_ge_iff
  intro _
  rw [head_le_iff, head_le_iff]
  refine and_congr_right fun above => ⟨fun kept entry member => ?_, fun all entry member => ?_⟩
  · by_cases later : low < position entry
    · exact kept entry (mem_filter.mpr ⟨member, decide_eq_true later⟩)
    · exact le_trans (Nat.le_of_not_lt later) (le_trans ordered above)
  · exact all entry (mem_of_mem_filter member)

section
variable (increasing : Increasing position log)
include increasing

theorem Increasing.window_append (lower : low ≤ middle) (upper : middle ≤ high) :
    window position log low high = window position log low middle ++ window position log middle high := by
  induction log with
  | nil => rfl
  | cons first rest ih =>
    obtain ⟨ahead, increasing⟩ := pairwise_cons.mp increasing
    rw [window_cons, window_cons, window_cons, ih increasing]
    by_cases before : position first ≤ middle
    · by_cases inside : low < position first
      · simp [inside, before, le_trans before upper, not_lt.mpr before]
      · simp [inside, not_lt.mpr before]
    · -- The rest lies beyond the cut as well, so the first part is empty.
      have beyondCut : middle < position first := not_le.mp before
      have nothing : window position rest low middle = [] :=
        window_eq_nil fun entry member => lt_trans beyondCut (ahead entry member)
      simp [before, nothing, beyondCut, lt_of_le_of_lt lower beyondCut]

/-- Where reading some entries leads is a cut between the entries read and those left. -/
theorem Increasing.around_reached (cut : beyond position log low = taken ++ rest) :
    (∀ entry ∈ taken, position entry ≤ reached position low taken) ∧
      ∀ entry ∈ rest, reached position low taken < position entry := by
  have ordered : Increasing position (beyond position log low) := Pairwise.filter _ increasing
  rw [cut] at ordered
  obtain ⟨takenOrdered, _, across⟩ := pairwise_append.mp ordered
  refine ⟨fun entry member => Increasing.le_reached takenOrdered member, ?_⟩
  intro entry member
  rcases reached_eq_or_mem position low taken with ⟨_, stays⟩ | ⟨last, listed, moved⟩
  · have above : entry ∈ beyond position log low := cut ▸ mem_append_right taken member
    exact stays.symm ▸ of_decide_eq_true (mem_filter.mp above).2
  · exact moved.symm ▸ across last listed entry member

theorem Increasing.window_reached (cut : beyond position log low = taken ++ rest) :
    window position log low (reached position low taken) = taken := by
  obtain ⟨read, left⟩ := increasing.around_reached cut
  have within : window position log low (reached position low taken) =
      (beyond position log low).filter fun entry => position entry ≤ reached position low taken := by
    rw [beyond, filter_filter, window]
    simp [Bool.and_comm]
  have kept : taken.filter (fun entry => position entry ≤ reached position low taken) = taken :=
    filter_eq_self.mpr fun entry member => decide_eq_true (read entry member)
  have dropped : rest.filter (fun entry => position entry ≤ reached position low taken) = [] := by
    apply filter_eq_nil_iff.mpr
    intro entry member
    rw [decide_eq_true_eq, not_le]
    exact left entry member
  rw [within, cut, filter_append, kept, dropped, append_nil]

theorem Increasing.take_beyond (low count : Nat) :
    (beyond position log low).take count =
      window position log low (reached position low ((beyond position log low).take count)) :=
  (increasing.window_reached (take_append_drop count _).symm).symm

end

end Aequora.Base
