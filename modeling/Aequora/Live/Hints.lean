import Aequora.Base.Run
import Aequora.Base.SortedTable
import Aequora.Protocol.Types

/-! Live hints and the queue of a connection, which keeps one hint for each topic. Hints of one topic
are merged, and the queue gives out the smallest topic first, whatever the reason of its hint is. -/

namespace Aequora.Live

open Std Aequora.Base Aequora.Protocol Run ExtTreeMap

inductive SyncHintReason where
  | newAuthoritativeChange | scopeChanged | revocation | maintenanceChanged | upgradeNotice
  | syncRequired
deriving DecidableEq

def SyncHintReason.priority : SyncHintReason → Nat
  | .revocation => 5
  | .scopeChanged => 4
  | .maintenanceChanged => 3
  | .upgradeNotice => 2
  | .newAuthoritativeChange => 1
  | .syncRequired => 6

structure SyncHint where
  protocol : UInt16
  tenantId : TenantId
  scopeId : SyncScopeId
  latestSequence : Option Sequence
  reason : SyncHintReason
deriving DecidableEq

abbrev HintTopic := TenantId × SyncScopeId

namespace SyncHint

def topic (hint : SyncHint) : HintTopic := (hint.tenantId, hint.scopeId)

def merge (current newer : SyncHint) : SyncHint :=
  { newer with
    latestSequence :=
      match current.latestSequence, newer.latestSequence with
      | some left, some right => some (max left right)
      | some sequence, none | none, some sequence => some sequence
      | none, none => none
    reason := if current.reason.priority ≤ newer.reason.priority then newer.reason else current.reason }

/-- A hint with the largest sequence and the reason of the highest priority among some hints. -/
structure Summarises (hint : SyncHint) (hints : List SyncHint) : Prop where
  sequence : hint.latestSequence = (hints.filterMap latestSequence).max?
  reason : (hints.map fun other => other.reason.priority).max? = some hint.reason.priority

theorem summarises_single (hint : SyncHint) : hint.Summarises [hint] := by
  refine ⟨?_, rfl⟩
  cases carried : hint.latestSequence <;> simp [carried]

theorem Summarises.merge {current : SyncHint} (summarises : current.Summarises hints) (newer : SyncHint) :
    (current.merge newer).Summarises (newer :: hints) := by
  obtain ⟨sequence, reason⟩ := summarises
  constructor
  · unfold SyncHint.merge
    rw [List.filterMap_cons]
    cases newer.latestSequence <;> simp only [List.max?_cons, ← sequence] <;> cases current.latestSequence <;>
      simp [max_comm]
  · unfold SyncHint.merge
    rw [List.map_cons, List.max?_cons, reason]
    by_cases outranks : current.reason.priority ≤ newer.reason.priority <;> simp [outranks]
    omega

end SyncHint

inductive QueueOutcome where
  | inserted | coalesced | overflowDropped
deriving DecidableEq

structure LatestHintQueue where
  limit : Nat
  pending : ExtTreeMap HintTopic SyncHint
  dropped : Nat

inductive QueueCall where
  | push (hint : SyncHint)
  | pop

namespace LatestHintQueue

def new (limit : Nat) : LatestHintQueue := { limit := max limit 1, pending := ∅, dropped := 0 }

section
variable (queue : LatestHintQueue)

def push (hint : SyncHint) : QueueOutcome × LatestHintQueue :=
  match queue.pending[hint.topic]? with
  | some current => (.coalesced, { queue with pending := queue.pending.insert hint.topic (current.merge hint) })
  | none =>
    if queue.pending.size ≥ queue.limit then
      (.overflowDropped, { queue with dropped := saturatingAdd queue.dropped 1 })
    else (.inserted, { queue with pending := queue.pending.insert hint.topic hint })

def pop : Option SyncHint × LatestHintQueue :=
  match queue.pending.keys.head? with
  | none => (none, queue)
  | some topic => (queue.pending[topic]?, { queue with pending := queue.pending.erase topic })

def step : QueueCall → LatestHintQueue
  | .push hint => (queue.push hint).2
  | .pop => queue.pop.2

def drops : QueueCall → Nat
  | .push hint => if (queue.push hint).1 = .overflowDropped then 1 else 0
  | .pop => 0

end

/-- The hints of a topic that were pushed since it was last popped, and not dropped. -/
def gathered (topic : HintTopic) : LatestHintQueue → List SyncHint → List QueueCall → List SyncHint
  | _, hints, [] => hints
  | queue, hints, .push hint :: rest =>
    gathered topic (queue.push hint).2
      (if hint.topic = topic ∧ (queue.push hint).1 ≠ .overflowDropped then hint :: hints else hints) rest
  | queue, hints, .pop :: rest =>
    gathered topic queue.pop.2 (if queue.pending.keys.head? = some topic then [] else hints) rest

/-- What is pending for a topic is the summary of its hints. -/
def Tracks (topic : HintTopic) (queue : LatestHintQueue) (hints : List SyncHint) : Prop :=
  match queue.pending[topic]? with
  | none => hints = []
  | some hint => hint.topic = topic ∧ hint.Summarises hints

variable {queue : LatestHintQueue}

theorem push_cases (queue : LatestHintQueue) (hint : SyncHint) :
    (∃ current, queue.pending[hint.topic]? = some current ∧ queue.push hint =
        (.coalesced, { queue with pending := queue.pending.insert hint.topic (current.merge hint) })) ∨
      (queue.pending[hint.topic]? = none ∧ queue.push hint =
        (.overflowDropped, { queue with dropped := saturatingAdd queue.dropped 1 })) ∨
      queue.pending[hint.topic]? = none ∧ queue.pending.size < queue.limit ∧ queue.push hint =
        (.inserted, { queue with pending := queue.pending.insert hint.topic hint }) := by
  unfold push
  cases held : queue.pending[hint.topic]? with
  | some current => exact .inl ⟨current, rfl, rfl⟩
  | none =>
    dsimp only
    split
    · exact .inr (.inl ⟨rfl, rfl⟩)
    · next room => exact .inr (.inr ⟨rfl, Nat.not_le.mp room, rfl⟩)

section
variable (tracks : Tracks topic queue hints)
include tracks

theorem Tracks.push (hint : SyncHint) :
    Tracks topic (queue.push hint).2
      (if hint.topic = topic ∧ (queue.push hint).1 ≠ .overflowDropped then hint :: hints else hints) := by
  rcases push_cases queue hint with ⟨current, held, pushed⟩ | ⟨absent, pushed⟩ | ⟨absent, _, pushed⟩
  · rw [pushed]
    unfold Tracks at tracks ⊢
    rw [lookup_insert]
    by_cases same : hint.topic = topic
    · subst same
      rw [held] at tracks
      simpa using ⟨rfl, tracks.2.merge hint⟩
    · simpa [same] using tracks
  · rw [pushed, if_neg (by simp)]
    exact tracks
  · rw [pushed]
    unfold Tracks at tracks ⊢
    rw [lookup_insert]
    by_cases same : hint.topic = topic
    · subst same
      rw [absent] at tracks
      simpa [tracks] using SyncHint.summarises_single hint
    · simpa [same] using tracks

theorem Tracks.pop :
    Tracks topic queue.pop.2 (if queue.pending.keys.head? = some topic then [] else hints) := by
  unfold LatestHintQueue.pop
  cases first : queue.pending.keys.head? with
  | none => simpa using tracks
  | some least =>
    unfold Tracks at tracks ⊢
    dsimp only
    rw [lookup_erase]
    by_cases same : least = topic
    · simp [same]
    · simpa [same] using tracks

theorem Tracks.gathered (calls : List QueueCall) :
    Tracks topic (final step queue calls) (gathered topic queue hints calls) := by
  induction calls generalizing queue hints with
  | nil => exact tracks
  | cons call _ ih =>
    cases call with
    | push hint => exact ih (tracks.push hint)
    | pop => exact ih tracks.pop

end

theorem step_bounded (bounded : queue.pending.size ≤ queue.limit) (call : QueueCall) :
    (queue.step call).limit = queue.limit ∧ (queue.step call).pending.size ≤ queue.limit := by
  cases call with
  | push hint =>
    rw [step]
    rcases push_cases queue hint with ⟨_, held, pushed⟩ | ⟨_, pushed⟩ | ⟨_, room, pushed⟩
    · rw [pushed]
      dsimp only
      rw [size_insert, if_pos (contains_iff_mem.mpr (mem_iff_lookup.mpr ⟨_, held⟩))]
      exact ⟨rfl, bounded⟩
    · rw [pushed]
      exact ⟨rfl, bounded⟩
    · rw [pushed]
      dsimp only
      rw [size_insert]
      refine ⟨rfl, ?_⟩
      split <;> omega
  | pop =>
    rw [step, pop]
    split
    · exact ⟨rfl, bounded⟩
    · dsimp only
      rw [size_erase]
      refine ⟨rfl, ?_⟩
      split <;> omega

theorem dropped_final (calls : List QueueCall) (fits : queue.dropped + total step drops queue calls ≤ u64Max) :
    (final step queue calls).dropped = queue.dropped + total step drops queue calls := by
  induction calls generalizing queue with
  | nil => rfl
  | cons call _ ih =>
    rw [total] at fits ⊢
    have counted : (queue.step call).dropped = queue.dropped + queue.drops call := by
      cases call with
      | push hint =>
        unfold step drops at *
        rcases push_cases queue hint with ⟨_, _, pushed⟩ | ⟨_, pushed⟩ | ⟨_, _, pushed⟩
        · simp [pushed]
        · simp [pushed] at fits ⊢
          exact saturatingAdd_one_of_lt (by omega)
        · simp [pushed]
      | pop =>
        rw [step, pop]
        split <;> rfl
    rw [final_cons, ih (by omega)]
    omega

section
variable (queue : LatestHintQueue)

/-- The next `pop` gives out a pending hint that no pending hint outranks. -/
def PopsHighest : Prop :=
  queue.pending ≠ ∅ → ∃ hint, queue.pop.1 = some hint ∧ (∃ topic : HintTopic, queue.pending[topic]? = some hint) ∧
    ∀ (topic : HintTopic) held, queue.pending[topic]? = some held → held.reason.priority ≤ hint.reason.priority

/-- No pending hint outranks the one of the smallest topic. -/
def FirstHighest : Prop :=
  ∀ (first topic : HintTopic) hint held, queue.pending.keys.head? = some first → queue.pending[first]? = some hint →
    queue.pending[topic]? = some held → held.reason.priority ≤ hint.reason.priority

theorem popsHighest_iff : queue.PopsHighest ↔ queue.FirstHighest := by
  unfold PopsHighest FirstHighest pop
  cases least : queue.pending.keys.head? with
  | none => simp [keys_eq_nil_iff.mp (List.head?_eq_none_iff.mp least)]
  | some first =>
    obtain ⟨hint, held⟩ := mem_iff_lookup.mp (mem_keys.mp (List.mem_of_head? least))
    have pending : queue.pending ≠ ∅ := fun empty => by simp [empty] at held
    constructor
    · rintro highest _ topic hint other ⟨⟩ taken found
      obtain ⟨popped, given, _, bound⟩ := highest pending
      exact Option.some.inj (given.symm.trans taken) ▸ bound topic other found
    · intro bound _
      exact ⟨hint, held, ⟨first, held⟩, fun topic other found => bound first topic hint other rfl held found⟩

end

/-- The queue stays within its limit, summarises the hints of each topic and counts what it drops. It
gives out a hint of the highest priority exactly when the smallest topic holds one. -/
theorem hintQueue_iff (limit : Nat) (calls : List QueueCall) :
    (final step (new limit) calls).pending.size ≤ max limit 1 ∧
      (∀ topic (hint : SyncHint), (final step (new limit) calls).pending[topic]? = some hint →
        hint.topic = topic ∧ hint.Summarises (gathered topic (new limit) [] calls)) ∧
      (total step drops (new limit) calls ≤ u64Max →
        (final step (new limit) calls).dropped = total step drops (new limit) calls) ∧
      ((final step (new limit) calls).PopsHighest ↔ (final step (new limit) calls).FirstHighest) := by
  refine ⟨?_, ?_, ?_, popsHighest_iff _⟩
  · have bounded : ∀ calls, (final step (new limit) calls).limit = max limit 1 ∧
        (final step (new limit) calls).pending.size ≤ max limit 1 := by
      intro calls
      induction calls using List.reverseRecOn with
      | nil => simp [new]
      | append_singleton calls call ih =>
        rw [final_append]
        obtain ⟨same, size⟩ := step_bounded (ih.1.symm ▸ ih.2) call
        exact ⟨same.trans ih.1, ih.1 ▸ size⟩
    exact (bounded calls).2
  · intro topic hint held
    have tracks : Tracks topic (new limit) [] := by simp [Tracks, new]
    have kept := tracks.gathered calls
    unfold Tracks at kept
    rwa [held] at kept
  · intro fits
    have counted := @dropped_final (new limit) calls (by simpa [new] using fits)
    simpa [new] using counted

/-- A revocation for the second scope waits behind a change notice for the first. -/
theorem hintQueue_revocation_waits : let change : SyncHint := ⟨1, ⟨1⟩, ⟨1⟩, some 7, .newAuthoritativeChange⟩
    let revoked : SyncHint := ⟨1, ⟨1⟩, ⟨2⟩, none, .revocation⟩
    let queue := final step (new 8) [.push revoked, .push change]
    queue.pop.1 = some change ∧ ¬queue.PopsHighest := by
  intro change revoked queue
  refine ⟨by decide +kernel, fun highest => ?_⟩
  have bound := popsHighest_iff queue |>.mp highest (⟨1⟩, ⟨1⟩) (⟨1⟩, ⟨2⟩) change revoked
  exact absurd (bound (by decide +kernel) (by decide +kernel) (by decide +kernel)) (by decide)

end LatestHintQueue

end Aequora.Live
