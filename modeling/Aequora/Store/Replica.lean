import Aequora.Base.MarkedReplay
import Aequora.Base.NumberedLog
import Aequora.Store.Authoritative

/-! What a local store holds of one scope, and when it is complete. Authority timelines number their
changes independently, so a sequence number means something else in each of them. -/

namespace Aequora.Store

open Aequora.Base Aequora.Protocol RemoteChange

@[ext]
structure Replica where
  cursor : Option Cursor
  content : Marked EntityRef SnapshotEntity
  staged : EntityRef → Option SnapshotEntity

def Replica.empty : Replica where
  cursor := none
  content := { table := fun _ => none, marks := fun _ => false }
  staged := fun _ => none

section
variable (replica : Replica)

def Replica.apply (change : RemoteChange) : Replica :=
  { replica with
    content := Marked.once RemoteChange.entity snapshotEntity RemoteChange.sequence
      replica.content change }

/-- Apply the changes that are not marked, and take over the cursor. -/
def Replica.reconcile (response : SyncResponse) : Replica :=
  { replica with
    cursor := some response.nextCursor
    content := response.changes.foldl
      (Marked.once RemoteChange.entity snapshotEntity RemoteChange.sequence)
      replica.content }

theorem Replica.foldl_apply (changes : List RemoteChange) :
    changes.foldl Replica.apply replica =
      { replica with
        content := changes.foldl
          (Marked.once RemoteChange.entity snapshotEntity RemoteChange.sequence)
          replica.content } := by
  induction changes generalizing replica with
  | nil => rfl
  | cons change _ ih => exact ih (replica.apply change)

/-- Stage a page; the last one replaces entities and cursor. Marks stay as they are. -/
def Replica.stage (page : BootstrapResponse) : Replica :=
  let staged := overwrite SnapshotEntity.entity id replica.staged page.entities
  if page.hasMore then { replica with staged }
  else
    { cursor := some page.cursor
      content := { replica.content with table := staged }
      staged := fun _ => none }

theorem Replica.stage_cursor (page : BootstrapResponse) :
    (replica.stage page).cursor = if page.hasMore = false then some page.cursor else replica.cursor := by
  unfold Replica.stage
  cases page.hasMore <;> rfl

end

/-- The journals of one scope on all authority timelines. -/
structure ScopeHistory (scope : SyncScopeId) where
  journal : AuthorityTimeline → List RemoteChange
  numbered : ∀ timeline, NumberedFrom RemoteChange.sequence 0 (journal timeline)
  owned : ∀ timeline, ∀ change ∈ journal timeline, change.scopeId = scope

namespace ScopeHistory
variable (history : ScopeHistory scope)

/-- The authoritative entities of a timeline at a sequence. -/
def stateAt (timeline : AuthorityTimeline) (sequence : Sequence) : EntityRef → Option SnapshotEntity :=
  overwrite RemoteChange.entity snapshotEntity (fun _ => none)
    ((history.journal timeline).take sequence)

def between (timeline : AuthorityTimeline) (start stop : Sequence) : List RemoteChange :=
  ((history.journal timeline).take stop).drop start

theorem overwrite_between (order : start ≤ stop) :
    overwrite RemoteChange.entity snapshotEntity (history.stateAt timeline start)
      (history.between timeline start stop) = history.stateAt timeline stop := by
  have cut : (history.journal timeline).take start = ((history.journal timeline).take stop).take start := by
    rw [List.take_take, Nat.min_eq_left order]
  unfold stateAt between
  rw [cut, ← overwrite_append, List.take_append_drop]

theorem mem_between (member : change ∈ history.between timeline start stop) :
    change.scopeId = scope ∧ start < change.sequence ∧ change.sequence ≤ stop := by
  have within : change ∈ (history.journal timeline).take stop := List.mem_of_mem_drop member
  have numbered := (history.numbered timeline).take stop
  refine ⟨history.owned timeline change (List.mem_of_mem_take within), ?_, ?_⟩
  · by_cases reaches : start ≤ ((history.journal timeline).take stop).length
    · simpa using ((numbered.drop reaches).bounds member).1
    · rw [between, List.drop_eq_nil_of_le (Nat.le_of_not_le reaches)] at member
      cases member
  · have bound := (numbered.bounds within).2
    rw [List.length_take, Nat.zero_add] at bound
    exact bound.trans (Nat.min_le_left _ _)

theorem between_distinct (timeline : AuthorityTimeline) (start stop : Sequence) :
    ((history.between timeline start stop).map RemoteChange.sequence).Nodup := by
  have numbered := ((history.numbered timeline).take stop).nodup
  rw [between, List.map_drop]
  exact numbered.sublist (List.drop_sublist _ _)

section
variable (replica : Replica)

/-- The replica holds the authoritative entities of its cursor. -/
def Complete : Prop :=
  replica.content.table = replica.cursor.elim (fun _ => none) fun cursor =>
    history.stateAt cursor.timeline cursor.sequence

def position : Sequence := replica.cursor.elim 0 Cursor.sequence

/-- The response carries exactly the changes of its own timeline from the stored to its cursor. -/
def Delivers (response : SyncResponse) : Prop :=
  response.changes =
    history.between response.nextCursor.timeline (position replica) response.nextCursor.sequence

/-- Applying what is not marked to what the replica holds gives what all changes give on the
response's own timeline. -/
def AppliesAll (response : SyncResponse) : Prop :=
  overwrite RemoteChange.entity snapshotEntity replica.content.table
      (replica.content.unmarked RemoteChange.sequence response.changes) =
    overwrite RemoteChange.entity snapshotEntity
      (history.stateAt response.nextCursor.timeline (position replica)) response.changes

end

theorem reconcile_complete_iff (delivers : history.Delivers replica response)
    (onward : position replica ≤ response.nextCursor.sequence) :
    history.Complete (replica.reconcile response) ↔ history.AppliesAll replica response := by
  have distinct : (response.changes.map RemoteChange.sequence).Nodup :=
    delivers ▸ history.between_distinct _ _ _
  have reached : overwrite RemoteChange.entity snapshotEntity
      (history.stateAt response.nextCursor.timeline (position replica)) response.changes =
        history.stateAt response.nextCursor.timeline response.nextCursor.sequence :=
    delivers ▸ history.overwrite_between onward
  rw [AppliesAll, reached]
  simp only [Complete, Replica.reconcile, Marked.foldl_once distinct, Option.elim_some]

/-- No mark lies beyond the stored cursor. -/
def Bounded (replica : Replica) : Prop :=
  ∀ sequence, replica.content.marks sequence = true → sequence ≤ position replica

/-- The response continues the timeline of the stored cursor. -/
def Follows (replica : Replica) (response : SyncResponse) : Prop :=
  ∀ stored, replica.cursor = some stored → stored.timeline = response.nextCursor.timeline

theorem appliesAll_of_bounded (delivers : history.Delivers replica response) (follows : Follows replica response)
    (complete : history.Complete replica) (bounded : Bounded replica) :
    history.AppliesAll replica response := by
  have fresh : ∀ change ∈ response.changes, replica.content.marks change.sequence = false := by
    intro change member
    rw [Delivers] at delivers
    rw [delivers] at member
    have beyond := (history.mem_between member).2.1
    exact Bool.eq_false_iff.mpr fun marked => beyond.not_ge (bounded change.sequence marked)
  have held : replica.content.table = history.stateAt response.nextCursor.timeline (position replica) := by
    rw [Complete] at complete
    rw [complete, position]
    cases found : replica.cursor with
    | none => rfl
    | some stored => rw [Option.elim_some, Option.elim_some, follows stored found]
  rw [AppliesAll, Marked.unmarked_eq fresh, held]

theorem Bounded.reconcile (bounded : Bounded replica) (delivers : history.Delivers replica response)
    (onward : position replica ≤ response.nextCursor.sequence) :
    Bounded (replica.reconcile response) := by
  have distinct : (response.changes.map RemoteChange.sequence).Nodup :=
    delivers ▸ history.between_distinct _ _ _
  intro sequence marked
  simp only [Replica.reconcile, Marked.foldl_once distinct, Bool.or_eq_true, decide_eq_true_eq] at marked
  show sequence ≤ response.nextCursor.sequence
  rcases marked with before | new
  · exact (bounded sequence before).trans onward
  · obtain ⟨_, member, rfl⟩ := List.mem_map.mp new
    rw [Delivers] at delivers
    rw [delivers] at member
    exact (history.mem_between member).2.2

end ScopeHistory

end Aequora.Store
