import Aequora.Base.SourceRemoval
import Mathlib.Data.List.Sort

/-! Layered topological ordering. Placing a layer uses up its outgoing edges and so opens the next
one. Every node is placed exactly if the edges form no cycle, in the layer numbered by the longest
chain that ends at it. -/

namespace Aequora.Base

open List

/-- The unused incoming edges of each node, the nodes that just ran out of them, and the order
and layers built so far. -/
structure Layering where
  (indegree ready ordered : List Nat)
  groups : List (List Nat)

namespace Layering

/-- Use up one edge into the node. -/
def release (state : Layering) (node : Nat) : Layering :=
  let indegree := state.indegree.modify node (· - 1)
  { state with
    indegree
    ready := if indegree[node]? = some 0 then state.ready ++ [node] else state.ready }

variable (outgoing : Nat → List Nat)

/-- Put a node next in the order and use up its outgoing edges. -/
def place (state : Layering) (node : Nat) : Layering :=
  (outgoing node).foldl release { state with ordered := state.ordered ++ [node] }

/-- Place every ready node, in ascending order, as one layer. -/
def round (state : Layering) : Layering :=
  let group := state.ready.insertionSort (· ≤ ·)
  let placed := group.foldl (place outgoing) { state with ready := [] }
  { placed with groups := placed.groups ++ [group] }

/-- Repeat while a node is ready. -/
def rounds : Nat → Layering → Layering
  | 0, state => state
  | fuel + 1, state => if state.ready = [] then state else rounds fuel (state.round outgoing)

/-- The targets of all edges that leave nodes not yet placed. -/
def unplaced (size : Nat) (ordered : List Nat) : List Nat :=
  ((range size).filter fun node => decide (node ∉ ordered)).flatMap outgoing

/-- The invariant while the layer `pending` is being placed and the edges to `owed` are being used
up: in-degrees count the unused edges and the nodes without any are exactly those queued. -/
structure Valid (size : Nat) (state : Layering) (pending owed : List Nat) : Prop where
  total : state.indegree.length = size
  distinct : (state.ordered ++ pending ++ state.ready).Nodup
  bounded : ∀ node ∈ state.ordered ++ pending ++ state.ready, node < size
  counts : ∀ node < size, state.indegree[node]? =
    some ((unplaced outgoing size state.ordered ++ owed).count node)
  queued : ∀ node < size, (unplaced outgoing size state.ordered ++ owed).count node = 0 ↔
    node ∈ state.ordered ++ pending ++ state.ready
  sources : ∀ before node after, state.ordered = before ++ node :: after →
    ∀ source < size, node ∈ outgoing source → source ∈ before

variable {outgoing} {state : Layering}

section
variable (valid : Valid outgoing size state pending (node :: owed))
include valid

theorem Valid.release_counts (inside : other < size) : (state.release node).indegree[other]? =
      some ((unplaced outgoing size state.ordered ++ owed).count other) := by
  have counted := valid.counts other inside
  rw [count_owed] at counted
  rw [release, getElem?_modify, counted]
  by_cases same : node = other
  · simp [same]
  · simp [same]

theorem Valid.owed_fresh (inside : node < size) : node ∉ state.ordered ++ pending ++ state.ready := by
  rw [← valid.queued node inside, count_owed, if_pos rfl]
  exact Nat.succ_ne_zero _

theorem Valid.mem_release_ready : other ∈ (state.release node).ready ↔ other ∈ state.ready ∨
      other = node ∧ node < size ∧ (unplaced outgoing size state.ordered ++ owed).count node = 0 := by
  by_cases inside : node < size
  · have counted := valid.release_counts inside
    simp only [release] at counted ⊢
    by_cases last : (unplaced outgoing size state.ordered ++ owed).count node = 0
    · simp [counted, last, inside]
    · simp only [counted, Option.some.injEq, last, if_false, and_false, or_false]
  · have absent : (state.indegree.modify node (· - 1))[node]? = none := by
      rw [getElem?_eq_none_iff, length_modify, valid.total]
      exact Nat.le_of_not_lt inside
    simp [release, absent, inside]

theorem Valid.release_nodup : (state.ordered ++ pending ++ (state.release node).ready).Nodup := by
  simp only [release]
  split
  · rename_i opened
    have inside : node < size := by
      have present := (List.getElem?_eq_some_iff.mp opened).1
      rwa [length_modify, valid.total] at present
    rw [← append_assoc]
    refine nodup_append.mpr ⟨valid.distinct, nodup_singleton node, ?_⟩
    intro _ member _ single same
    rw [same, mem_singleton.mp single] at member
    exact valid.owed_fresh inside member
  · exact valid.distinct

theorem Valid.release : Valid outgoing size (state.release node) pending owed where
  total := by
    rw [Layering.release, length_modify]
    exact valid.total
  distinct := valid.release_nodup
  bounded other member := by
    rcases mem_append.mp member with earlier | ready
    · exact valid.bounded other (mem_append_left _ earlier)
    · rcases valid.mem_release_ready.mp ready with before | ⟨rfl, inside, -⟩
      · exact valid.bounded other (mem_append_right _ before)
      · exact inside
  counts other inside := valid.release_counts inside
  queued other inside := by
    have before := valid.queued other inside
    rw [count_owed] at before
    change (unplaced outgoing size state.ordered ++ owed).count other = 0 ↔
      other ∈ state.ordered ++ pending ++ (state.release node).ready
    rw [mem_append, valid.mem_release_ready, ← or_assoc, ← mem_append, ← before]
    by_cases same : node = other
    · subst other
      simp [inside]
    · simp [same, Ne.symm same]
  sources := valid.sources

end

theorem Valid.place_first (valid : Valid outgoing size state (node :: pending) []) :
    Valid outgoing size { state with ordered := state.ordered ++ [node] } pending (outgoing node) := by
  have member : node ∈ state.ordered ++ node :: pending ++ state.ready := by simp
  have inside := valid.bounded node member
  have fresh : node ∉ state.ordered := by
    have apart := valid.distinct
    rw [append_assoc] at apart
    intro placed
    exact (nodup_append.mp apart).2.2 node placed node mem_cons_self rfl
  have moved : ∀ other, (unplaced outgoing size state.ordered ++ []).count other =
      (unplaced outgoing size (state.ordered ++ [node]) ++ outgoing node).count other := by
    intro other
    rw [append_nil]
    exact (unusedEdges_snoc nodup_range (mem_range.mpr inside) fresh).count_eq other
  have queue : state.ordered ++ [node] ++ pending = state.ordered ++ node :: pending := by simp
  refine ⟨valid.total, ?_, ?_, ?_, ?_, ?_⟩
  · rw [queue]
    exact valid.distinct
  · rw [queue]
    exact valid.bounded
  · intro other below
    rw [← moved]
    exact valid.counts other below
  · intro other below
    rw [← moved, queue]
    exact valid.queued other below
  · have earlier : SourcesFirst outgoing (range size) state.ordered :=
      fun before placed after split source below => valid.sources before placed after split source (mem_range.mp below)
    -- The node has no unused incoming edge, so each of its sources was placed.
    have unused : node ∉ unusedEdges outgoing (range size) state.ordered := by
      have zero := (valid.queued node inside).mpr member
      rwa [append_nil, count_eq_zero] at zero
    intro before placed after split source below
    exact earlier.snoc unused before placed after split source (mem_range.mpr below)

theorem Valid.releases (valid : Valid outgoing size state pending owed) :
    Valid outgoing size (owed.foldl Layering.release state) pending [] := by
  induction owed generalizing state with
  | nil => exact valid
  | cons _ _ ih => exact ih valid.release

theorem Valid.place (valid : Valid outgoing size state (node :: pending) []) :
    Valid outgoing size (state.place outgoing node) pending [] :=
  valid.place_first.releases

theorem Valid.places (valid : Valid outgoing size state pending []) :
    Valid outgoing size (pending.foldl (Layering.place outgoing) state) [] [] := by
  induction pending generalizing state with
  | nil => exact valid
  | cons _ _ ih => exact ih valid.place

section
variable (valid : Valid outgoing size state [] [])
include valid

theorem Valid.open_layer (same : group.Perm state.ready) : Valid outgoing size { state with ready := [] } group [] := by
  have queue : (state.ordered ++ group ++ []).Perm (state.ordered ++ [] ++ state.ready) := by
    simpa using same.append_left state.ordered
  refine ⟨valid.total, queue.nodup_iff.mpr valid.distinct, ?_, valid.counts, ?_, valid.sources⟩
  · exact fun node member => valid.bounded node (queue.mem_iff.mp member)
  · exact fun node inside => (valid.queued node inside).trans queue.mem_iff.symm

theorem Valid.round : Valid outgoing size (state.round outgoing) [] [] :=
  let placed := (valid.open_layer (perm_insertionSort (· ≤ ·) state.ready)).places
  ⟨placed.total, placed.distinct, placed.bounded, placed.counts, placed.queued, placed.sources⟩

theorem Valid.rounds (fuel : Nat) :
    Valid outgoing size (rounds outgoing fuel state) [] [] := by
  induction fuel generalizing state with
  | zero => exact valid
  | succ _ ih =>
    rw [Layering.rounds]
    split
    · exact valid
    · exact ih valid.round

end

theorem releases_ordered (owed : List Nat) (state : Layering) :
    (owed.foldl release state).ordered = state.ordered := by
  induction owed generalizing state with
  | nil => rfl
  | cons node _ ih => exact ih (state.release node)

theorem places_ordered (pending : List Nat) (state : Layering) :
    (pending.foldl (place outgoing) state).ordered = state.ordered ++ pending := by
  induction pending generalizing state with
  | nil => simp
  | cons _ _ ih =>
    rw [foldl_cons, ih, place, releases_ordered]
    simp

theorem round_ordered (state : Layering) :
    (state.round outgoing).ordered = state.ordered ++ state.ready.insertionSort (· ≤ ·) :=
  places_ordered _ _

section
variable (valid : Valid outgoing size state [] [])
include valid

theorem Valid.ordered_subperm : state.ordered.Subperm (range size) := by
  have queue := valid.distinct
  rw [append_nil] at queue
  refine subperm_of_subset (nodup_append.mp queue).1 fun node member => ?_
  exact mem_range.mpr (valid.bounded node (by simp [member]))

theorem Valid.rounds_ready (fuel : Nat)
    (enough : size < state.ordered.length + fuel) : (Layering.rounds outgoing fuel state).ready = [] := by
  induction fuel generalizing state with
  | zero =>
    have placed := valid.ordered_subperm.length_le
    rw [length_range] at placed
    omega
  | succ _ ih =>
    rw [Layering.rounds]
    split
    · assumption
    · rename_i waiting
      refine ih valid.round ?_
      have opened := length_pos_iff.mpr waiting
      rw [round_ordered, length_append, length_insertionSort]
      omega

theorem Valid.perm (complete : state.ordered.length = size) : state.ordered.Perm (range size) := by
  apply valid.ordered_subperm.perm_of_length_le
  rw [length_range, complete]

end

/-- The edges between the first nodes. -/
def Linked (outgoing : Nat → List Nat) (size : Nat) : Nat → Nat → Prop :=
  Among (fun source node => node ∈ outgoing source) (range size)

theorem Valid.free_iff (valid : Valid outgoing size state [] []) (inside : node < size) :
    (∀ source, Linked outgoing size source node → source ∈ state.ordered) ↔
      node ∈ state.ordered ∨ node ∈ state.ready := by
  have queued := valid.queued node inside
  rw [append_nil, append_nil, count_eq_zero, mem_append] at queued
  rw [← queued]
  have unplaced_iff : node ∈ unplaced outgoing size state.ordered ↔
      ∃ source ∈ range size, source ∉ state.ordered ∧ node ∈ outgoing source := mem_unusedEdges
  rw [unplaced_iff]
  constructor
  · rintro sources ⟨source, known, missing, edge⟩
    exact missing (sources source ⟨known, mem_range.mpr inside, edge⟩)
  · rintro none source ⟨known, -, edge⟩
    by_contra missing
    exact none ⟨source, known, missing, edge⟩

theorem Valid.complete_iff (valid : Valid outgoing size state [] []) (ended : state.ready = []) :
    state.ordered.length = size ↔ Acyclic (Linked outgoing size) := by
  constructor
  · intro complete
    have same := valid.perm complete
    refine SourcesBefore.acyclic (same.nodup_iff.mpr nodup_range) (fun _ => same.mem_iff.mpr) ?_
    intro before placed after split source below
    exact valid.sources before placed after split source (mem_range.mp below)
  · intro acyclic
    have all : ∀ node ∈ range size, node ∈ state.ordered := by
      refine mem_of_acyclic acyclic fun node inside sources => ?_
      have free := (valid.free_iff (mem_range.mp inside)).mp fun source linked =>
        sources source linked.1 linked.2.2
      rwa [ended, mem_nil_iff, or_false] at free
    have most := (subperm_of_subset nodup_range all).length_le
    have least := valid.ordered_subperm.length_le
    rw [length_range] at most least
    exact Nat.le_antisymm least most

/-- The layers are ascending, make up the order, and are numbered by rank. -/
structure Leveled (outgoing : Nat → List Nat) (size : Nat) (state : Layering) : Prop where
  joined : state.groups.flatten = state.ordered
  ascending : ∀ group ∈ state.groups, group.Pairwise (· < ·)
  placed : ∀ level group, state.groups[level]? = some group →
    ∀ node ∈ group, Rank (Linked outgoing size) level node
  waiting : ∀ node ∈ state.ready, Rank (Linked outgoing size) state.groups.length node

theorem places_groups (pending : List Nat) (state : Layering) :
    (pending.foldl (place outgoing) state).groups = state.groups := by
  have released (owed : List Nat) (state : Layering) : (owed.foldl release state).groups = state.groups := by
    induction owed generalizing state with
    | nil => rfl
    | cons node _ ih => exact ih (state.release node)
  induction pending generalizing state with
  | nil => rfl
  | cons _ _ ih => rw [foldl_cons, ih, place, released]

theorem round_groups (state : Layering) :
    (state.round outgoing).groups = state.groups ++ [state.ready.insertionSort (· ≤ ·)] := by
  rw [round]
  simp only [places_groups]

theorem mem_round_ordered : node ∈ (state.round outgoing).ordered ↔ node ∈ state.ordered ∨ node ∈ state.ready := by
  rw [round_ordered, mem_append, mem_insertionSort]

theorem Leveled.round_placed (leveled : Leveled outgoing size state)
    (found : (state.round outgoing).groups[level]? = some group) (member : node ∈ group) :
    Rank (Linked outgoing size) level node := by
  rw [round_groups] at found
  rcases Nat.lt_or_ge level state.groups.length with earlier | last
  · rw [getElem?_append_left earlier] at found
    exact leveled.placed level group found node member
  · rw [getElem?_append_right last, getElem?_singleton] at found
    split at found
    · obtain rfl : level = state.groups.length := by omega
      cases found
      exact leveled.waiting node ((mem_insertionSort _).mp member)
    · cases found

/-- A node that a round makes ready was waiting for one that was ready: had all its sources been
placed before, it would have been ready itself. -/
theorem Valid.exists_ready_source (valid : Valid outgoing size state [] [])
    (opened : node ∈ (state.round outgoing).ready) :
    (∀ source, Linked outgoing size source node → source ∈ (state.round outgoing).ordered) ∧
      ∃ source ∈ state.ready, Linked outgoing size source node := by
  have after := valid.round
  have inside : node < size := after.bounded node (mem_append_right _ opened)
  have fresh : node ∉ (state.round outgoing).ordered := by
    have distinct := after.distinct
    rw [append_nil] at distinct
    exact fun done => (nodup_append.mp distinct).2.2 node done node opened rfl
  have sources := (after.free_iff inside).mpr (.inr opened)
  refine ⟨sources, ?_⟩
  by_contra none
  apply fresh
  refine mem_round_ordered.mpr ((valid.free_iff inside).mp fun source linked => ?_)
  refine (mem_round_ordered.mp (sources source linked)).resolve_right fun ready => ?_
  exact none ⟨source, ready, linked⟩

variable (valid : Valid outgoing size state [] [])
include valid

theorem Leveled.round (leveled : Leveled outgoing size state) : Leveled outgoing size (state.round outgoing) := by
  have unique : state.ready.Nodup := by
    have distinct := valid.distinct
    rw [append_nil] at distinct
    exact (nodup_append.mp distinct).2.1
  have joined : (state.round outgoing).groups.flatten = (state.round outgoing).ordered := by
    rw [round_groups, round_ordered, flatten_append, flatten_singleton, leveled.joined]
  refine ⟨joined, ?_, fun level group found node => leveled.round_placed found, ?_⟩
  · rw [round_groups, forall_mem_append, forall_mem_singleton]
    refine ⟨leveled.ascending, ?_⟩
    have sorted : (state.ready.insertionSort (· ≤ ·)).Pairwise (· ≤ ·) := pairwise_insertionSort _ _
    have apart : (state.ready.insertionSort (· ≤ ·)).Pairwise (· ≠ ·) :=
      (perm_insertionSort _ _).nodup_iff.mpr unique
    exact (sorted.and apart).imp fun ⟨least, different⟩ => Nat.lt_of_le_of_ne least different
  · intro _ opened
    obtain ⟨sources, highest, last, linked⟩ := valid.exists_ready_source opened
    have count : (state.round outgoing).groups.length = state.groups.length + 1 := by
      rw [round_groups, length_append, length_singleton]
    rw [count]
    refine Rank.of_sources linked (leveled.waiting highest last) fun source linked => ?_
    have done := sources source linked
    rw [← joined] at done
    obtain ⟨_, member, found⟩ := mem_flatten.mp done
    obtain ⟨level, present⟩ := mem_iff_getElem?.mp member
    have below := (List.getElem?_eq_some_iff.mp present).1
    exact ⟨level, by omega, leveled.round_placed present found⟩

theorem Leveled.rounds (leveled : Leveled outgoing size state)
    (fuel : Nat) : Leveled outgoing size (rounds outgoing fuel state) := by
  induction fuel generalizing state with
  | zero => exact leveled
  | succ _ ih =>
    rw [Layering.rounds]
    split
    · exact leveled
    · exact ih valid.round (leveled.round valid)

theorem Valid.leveled (ordered : state.ordered = []) (groups : state.groups = []) : Leveled outgoing size state where
  joined := by rw [groups, ordered, flatten_nil]
  ascending group member := by
    rw [groups] at member
    cases member
  placed level group found := by
    rw [groups] at found
    cases found
  waiting node opened := by
    rw [groups]
    refine Rank.of_no_source fun source linked => ?_
    have inside : node < size := valid.bounded node (mem_append_right _ opened)
    have done := (valid.free_iff inside).mpr (.inr opened) source linked
    rw [ordered] at done
    cases done

end Layering

end Aequora.Base
