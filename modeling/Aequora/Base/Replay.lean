import Aequora.Base.KeyOrder
import Mathlib.Data.List.Basic

/-! State rebuilt by replaying a log: each event overwrites the value of its key. -/

namespace Aequora.Base

open Std List

universe u v w
variable {Event : Type u} {Key : Type v} {Value : Type w}
variable [Ord Key] [TransOrd Key]

/-- Apply the events in order to a table. -/
def replayFrom (key : Event → Key) (value : Event → Value) (table : ExtTreeMap Key Value)
    (events : List Event) : ExtTreeMap Key Value :=
  events.foldl (fun built event => built.insert (key event) (value event)) table

/-- The table a log leaves behind. -/
def replay (key : Event → Key) (value : Event → Value) (events : List Event) : ExtTreeMap Key Value :=
  replayFrom key value ∅ events

variable {key : Event → Key}

theorem replay_append (first second : List Event) :
    replay key value (first ++ second) = replayFrom key value (replay key value first) second :=
  foldl_append

theorem replay_snoc (events : List Event) (event : Event) :
    replay key value (events ++ [event]) = (replay key value events).insert (key event) (value event) :=
  replay_append events [event]

variable [LawfulEqOrd Key] [DecidableEq Key]

theorem lookup_replay (events : List Event) (target : Key) :
    (replay key value events)[target]? =
      ((events.filter fun event => decide (key event = target)).getLast?).map value := by
  induction events using reverseRecOn with
  | nil => simp [replay, replayFrom]
  | append_singleton _ event ih =>
    rw [replay_snoc, lookup_insert, ih, filter_append]
    by_cases same : key event = target <;> simp [same]

omit [DecidableEq Key] in
theorem mem_replay : target ∈ replay key value events ↔ target ∈ events.map key := by
  induction events using reverseRecOn with
  | nil => simp [replay, replayFrom]
  | append_singleton _ _ ih =>
    rw [replay_snoc, ExtTreeMap.mem_insert, ih, Std.compare_eq_iff_eq, map_append, mem_append,
      map_singleton, mem_singleton, or_comm, eq_comm]

theorem lookup_replay_of_nodup (distinct : (events.map key).Nodup) (member : event ∈ events) :
    (replay key value events)[key event]? = some (value event) := by
  induction events using reverseRecOn with
  | nil => cases member
  | append_singleton _ last ih =>
    rw [map_append, nodup_append] at distinct
    rw [replay_snoc, lookup_insert]
    by_cases same : key last = key event
    · rcases mem_append.mp member with earlier | now
      · have repeated : key event ≠ key last :=
          distinct.2.2 _ (mem_map_of_mem earlier) _ (mem_map_of_mem mem_cons_self)
        exact absurd same.symm repeated
      · rw [if_pos same, mem_singleton.mp now]
    · rcases mem_append.mp member with earlier | now
      · rw [if_neg same]
        exact ih distinct.1 earlier
      · exact absurd (congrArg key (mem_singleton.mp now)).symm same

end Aequora.Base
