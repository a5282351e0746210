import Mathlib.Data.List.Basic

/-! Queues whose items name what they need and may be held back. A selection passes over what is
held, so it is out of order exactly when some item comes due before what it needs. -/

namespace Aequora.Base

open List

universe u v
variable {Item : Type u} {Key : Type v} (key : Item → Key) (needs : Item → List Key) (due : Item → Option Nat)

/-- Whatever an item needs is settled or stands before it. -/
def Supported (settled : Key → Prop) (items : List Item) : Prop :=
  ∀ before item after, items = before ++ item :: after →
    ∀ needed ∈ needs item, settled needed ∨ ∃ earlier ∈ before, key earlier = needed

/-- The first items of the queue that are not held back now. -/
def selection (now limit : Nat) (queue : List Item) : List Item :=
  (queue.filter fun item => (due item).any fun time => decide (time ≤ now)).take limit

/-- Whatever an item needs is settled or comes due no later than the item. -/
def DueInOrder (settled : Key → Prop) (queue : List Item) : Prop :=
  ∀ item ∈ queue, ∀ time, due item = some time →
    ∀ needed ∈ needs item, settled needed ∨
      ∃ other ∈ queue, key other = needed ∧ ∃ sooner ≤ time, due other = some sooner

variable {key needs due}

theorem Supported.nil : Supported key needs settled [] := by
  intro before _ _ split
  cases before <;> cases split

theorem Supported.mono (supported : Supported key needs settled items)
    (implies : ∀ needed, settled needed → more needed) : Supported key needs more items :=
  fun before item after split needed member =>
    (supported before item after split needed member).imp_left (implies needed)

/-- An ordered queue is in order if every item is preceded by what it needs. -/
theorem Supported.of_pairwise (sorted : items.Pairwise precedes)
    (found : ∀ item ∈ items, ∀ needed ∈ needs item, settled needed ∨
      ∃ earlier ∈ items, key earlier = needed ∧ earlier ≠ item ∧ ¬precedes item earlier) :
    Supported key needs settled items := by
  intro _ item _ split needed member
  subst split
  refine (found item (by simp) needed member).imp_right fun ⟨earlier, inside, same, different, sooner⟩ => ?_
  refine ⟨earlier, (mem_append.mp inside).resolve_right fun later => ?_, same⟩
  have rest := (mem_cons.mp later).resolve_left different
  exact sooner ((pairwise_cons.mp (pairwise_append.mp sorted).2.1).1 earlier rest)

theorem Supported.snoc (supported : Supported key needs settled items)
    (found : ∀ needed ∈ needs last, settled needed ∨ ∃ earlier ∈ items, key earlier = needed) :
    Supported key needs settled (items ++ [last]) := by
  intro before item after split needed member
  rcases eq_nil_or_concat after with rfl | ⟨front, _, rfl⟩
  · obtain ⟨rfl, same⟩ := append_inj' split rfl
    cases singleton_inj.mp same
    exact found needed member
  · rw [concat_eq_append, ← cons_append, ← append_assoc] at split
    obtain ⟨rfl, _⟩ := append_inj' split rfl
    exact supported before item front rfl needed member

theorem Supported.take (supported : Supported key needs settled items) (limit : Nat) :
    Supported key needs settled (items.take limit) := by
  intro before item after split
  apply supported before item (after ++ items.drop limit)
  rw [← cons_append, ← append_assoc, ← split, take_append_drop]

theorem supported_map : Supported key needs settled (sources.map value) ↔
      Supported (key ∘ value) (needs ∘ value) settled sources := by
  constructor
  · intro supported before source after split needed member
    refine (supported (before.map value) (value source) (after.map value) (by simp [split]) needed
      member).imp_right fun ⟨_, found, same⟩ => ?_
    obtain ⟨earlier, present, rfl⟩ := mem_map.mp found
    exact ⟨earlier, present, same⟩
  · intro supported _ _ _ split needed member
    obtain ⟨first, _, rfl, rfl, mapped⟩ := map_eq_append_iff.mp split
    obtain ⟨source, last, rfl, rfl, _⟩ := map_eq_cons_iff.mp mapped
    refine (supported first source last rfl needed member).imp_right fun ⟨earlier, found, same⟩ => ?_
    exact ⟨value earlier, mem_map_of_mem found, same⟩

/-- Items may leave a queue if they are not needed where they were. -/
theorem Supported.filter (supported : Supported key needs settled items)
    (covered : ∀ item ∈ items, keeps item = true → ∀ needed ∈ needs item,
      (settled needed → more needed) ∧
        ∀ other ∈ items, key other = needed → more needed ∨ keeps other = true) :
    Supported key needs more (items.filter keeps) := by
  intro _ item _ split needed member
  obtain ⟨first, _, rfl, rfl, kept⟩ := filter_eq_append_iff.mp split
  obtain ⟨skipped, last, rfl, refused, keptItem, rfl⟩ := filter_eq_cons_iff.mp kept
  have inside : item ∈ first ++ (skipped ++ item :: last) := by simp
  obtain ⟨carried, standing⟩ := covered item inside keptItem needed member
  rcases supported (first ++ skipped) item last (by simp) needed member with held | ⟨other, found, same⟩
  · exact .inl (carried held)
  · have present : other ∈ first ++ (skipped ++ item :: last) := by
      rw [← append_assoc]
      exact mem_append_left _ found
    rcases standing other present same with held | keptOther
    · exact .inl held
    · refine .inr ⟨other, mem_filter.mpr ⟨?_, keptOther⟩, same⟩
      exact (mem_append.mp found).resolve_right fun within => refused other within keptOther

/-- From a queue in order, whatever the time and the limit, the selection is in order exactly when
the items come due in order. -/
theorem selections_supported_iff {asked : Nat → Prop} (supported : Supported key needs settled queue)
    (distinct : ∀ first ∈ queue, ∀ second ∈ queue, key first = key second → first = second)
    (timely : ∀ item ∈ queue, ∀ time, due item = some time → asked time) :
    (∀ now, asked now → ∀ limit, Supported key needs settled (selection due now limit queue)) ↔
      DueInOrder key needs due settled queue := by
  constructor
  · intro inOrder item member time timed needed asked
    -- Everything that is due together with the item is selected.
    have selected : item ∈ selection due time queue.length queue := by
      rw [selection, take_of_length_le (length_filter_le _ _)]
      exact mem_filter.mpr ⟨member, by simp [timed]⟩
    obtain ⟨before, after, split⟩ := append_of_mem selected
    refine (inOrder time (timely item member time timed) queue.length before item after split
      needed asked).imp_right fun ⟨other, earlier, same⟩ => ?_
    have chosen : other ∈ selection due time queue.length queue := by
      rw [split]
      exact mem_append_left _ earlier
    obtain ⟨present, ready⟩ := mem_filter.mp (mem_of_mem_take chosen)
    obtain ⟨sooner, otherTimed, early⟩ := (Option.any_eq_true _ _).mp ready
    exact ⟨other, present, same, sooner, of_decide_eq_true early, otherTimed⟩
  · intro dueInOrder _ _ limit
    refine (Supported.filter supported fun item member ready needed asked => ⟨id, ?_⟩).take limit
    intro other present same
    obtain ⟨time, timed, early⟩ := (Option.any_eq_true _ _).mp ready
    refine (dueInOrder item member time timed needed asked).imp_right
      fun ⟨found, held, named, sooner, notLater, foundTimed⟩ => ?_
    rw [distinct other present found held (same.trans named.symm), foundTimed]
    exact decide_eq_true (Nat.le_trans notLater (of_decide_eq_true early))

end Aequora.Base
