import Mathlib.Data.List.Nodup
import Mathlib.Order.Interval.Finset.Nat

/-! Logs whose entries are numbered consecutively. Filtering such a log by
number is the same as cutting it at a position. -/

namespace Aequora.Base

universe u v
variable {Entry : Type u} (number : Entry → Nat)

/-- The entries carry the numbers `start + 1`, `start + 2`, and so on, in order. -/
def NumberedFrom : Nat → List Entry → Prop
  | _, [] => True
  | start, entry :: rest => number entry = start + 1 ∧ NumberedFrom (start + 1) rest

variable {number}

variable {log : List Entry}

theorem NumberedFrom.append_iff : NumberedFrom number start (first ++ second) ↔
      NumberedFrom number start first ∧ NumberedFrom number (start + first.length) second := by
  induction first generalizing start with
  | nil => simp [NumberedFrom]
  | cons _ rest ih =>
    simp only [List.cons_append, NumberedFrom, ih, List.length_cons, and_assoc]
    rw [show start + (rest.length + 1) = start + 1 + rest.length by omega]

section
variable (numbered : NumberedFrom number start log)
include numbered

namespace NumberedFrom

theorem snoc (next : number entry = start + log.length + 1) :
    NumberedFrom number start (log ++ [entry]) :=
  append_iff.mpr ⟨numbered, next, trivial⟩

theorem take (count : Nat) : NumberedFrom number start (log.take count) := by
  rw [← List.take_append_drop count log] at numbered
  exact (append_iff.mp numbered).1

theorem drop (within : count ≤ log.length) : NumberedFrom number (start + count) (log.drop count) := by
  rw [← List.take_append_drop count log] at numbered
  have rest := (append_iff.mp numbered).2
  rwa [List.length_take, Nat.min_eq_left within] at rest

theorem bounds (member : entry ∈ log) : start < number entry ∧ number entry ≤ start + log.length := by
  induction log generalizing start with
  | nil => cases member
  | cons _ _ ih =>
    obtain ⟨_, later⟩ := numbered
    simp only [List.length_cons]
    rcases List.mem_cons.mp member with rfl | inside
    · omega
    · have := ih later inside
      omega

theorem filter_le (limit : Nat) :
    log.filter (fun entry => decide (number entry ≤ limit)) = log.take (limit - start) := by
  induction log generalizing start with
  | nil => simp
  | cons _ _ ih =>
    obtain ⟨first, later⟩ := numbered
    rw [List.filter_cons, ih later, first]
    by_cases within : start + 1 ≤ limit
    · rw [show limit - start = (limit - (start + 1)) + 1 by omega]
      simp [within]
    · rw [show limit - start = 0 by omega, show limit - (start + 1) = 0 by omega]
      simp [within]

end NumberedFrom

end

section
variable (numbered : NumberedFrom number start log)
include numbered

theorem NumberedFrom.filter_gt (within : start ≤ limit) :
    NumberedFrom number limit (log.filter fun entry => decide (limit < number entry)) := by
  induction log generalizing start with
  | nil => trivial
  | cons _ rest ih =>
    obtain ⟨first, later⟩ := numbered
    by_cases same : start = limit
    · subst same
      have beyond : ∀ entry ∈ rest, start < number entry := fun entry member =>
        (Nat.lt_succ_self start).trans (later.bounds member).1
      rw [List.filter_eq_self.mpr (by simpa [first] using beyond)]
      exact ⟨first, later⟩
    · rw [List.filter_cons_of_neg (by simp only [decide_eq_true_eq]; omega)]
      exact ih later (by omega)

theorem NumberedFrom.at_position (found : log[position]? = some entry) :
    number entry = start + position + 1 := by
  induction log generalizing start position with
  | nil => simp at found
  | cons _ _ ih =>
    obtain ⟨first, later⟩ := numbered
    cases position with
    | zero =>
      cases found
      exact first
    | succ _ =>
      have := ih later found
      omega

theorem NumberedFrom.take_succ (member : entry ∈ log)
    (next : number entry = start + count + 1) :
    count < log.length ∧ log.take (count + 1) = log.take count ++ [entry] := by
  obtain ⟨position, found⟩ := List.mem_iff_getElem?.mp member
  have same : position = count := by
    have := numbered.at_position found
    omega
  subst same
  obtain ⟨within, -⟩ := List.getElem?_eq_some_iff.mp found
  exact ⟨within, by rw [List.take_add_one, found]; rfl⟩

theorem NumberedFrom.last (found : log.getLast? = some entry) :
    number entry = start + log.length := by
  obtain ⟨_, rfl⟩ := List.getLast?_eq_some_iff.mp found
  have next := (append_iff.mp numbered).2.1
  simp only [List.length_append, List.length_singleton]
  omega

end

/-- Appending to a log that is numbered per key keeps it so if the entry takes the next number
of its key. -/
theorem NumberedFrom.filter_snoc [DecidableEq Key] {key : Entry → Key}
    (numbered : NumberedFrom number start (log.filter fun item => decide (key item = target)))
    (next : key entry = target → number entry =
      start + (log.filter fun item => decide (key item = target)).length + 1) :
    NumberedFrom number start ((log ++ [entry]).filter fun item => decide (key item = target)) := by
  rw [List.filter_append]
  by_cases same : key entry = target
  · simpa [same] using numbered.snoc (next same)
  · simpa [same] using numbered

section
variable (numbered : NumberedFrom number start log)
include numbered

theorem NumberedFrom.map_eq : log.map number = List.range' (start + 1) log.length := by
  induction log generalizing start with
  | nil => rfl
  | cons _ _ ih =>
    rw [List.map_cons, List.length_cons, List.range'_succ, ih numbered.2, numbered.1]

theorem NumberedFrom.getLast_getD : (log.getLast?.map number).getD start = start + log.length := by
  cases found : log.getLast? with
  | none => simp [List.getLast?_eq_none_iff.mp found]
  | some _ => exact numbered.last found

theorem NumberedFrom.nodup : (log.map number).Nodup := by
  induction log generalizing start with
  | nil => simp
  | cons _ _ ih =>
    obtain ⟨_, later⟩ := numbered
    rw [List.map_cons, List.nodup_cons]
    refine ⟨?_, ih later⟩
    rintro member
    obtain ⟨_, inside, _⟩ := List.mem_map.mp member
    have := (later.bounds inside).1
    omega

end

section
variable (numbered : NumberedFrom number start log)
include numbered

theorem NumberedFrom.injective (leftMember : left ∈ log) (rightMember : right ∈ log)
    (same : number left = number right) : left = right :=
  List.inj_on_of_nodup_map numbered.nodup leftMember rightMember same

theorem NumberedFrom.of_isPrefix (initial : before <+: log) :
    NumberedFrom number start before := by
  obtain ⟨_, rfl⟩ := initial
  exact (append_iff.mp numbered).1

theorem NumberedFrom.toFinset : (log.map number).toFinset = Finset.Ioc start (start + log.length) := by
  induction log generalizing start with
  | nil => simp
  | cons _ _ ih =>
    obtain ⟨first, later⟩ := numbered
    rw [List.map_cons, List.toFinset_cons, ih later, first]
    ext value
    simp only [Finset.mem_insert, Finset.mem_Ioc, List.length_cons]
    omega

end

end Aequora.Base
