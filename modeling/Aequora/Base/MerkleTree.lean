import Mathlib.Data.Set.Function

/-! Binary hash trees. Neighbours are combined level by level up to one root; the last node of an
odd level is combined with itself. -/

namespace Aequora.Base.MerkleTree

universe u
variable {Digest : Type u}

/-- The neighbours of a level. -/
def pairUp : List Digest → List (Digest × Digest)
  | [] => []
  | [last] => [(last, last)]
  | left :: right :: rest => (left, right) :: pairUp rest

/-- A sibling, and the side of the path it stands on. -/
structure Step (Digest : Type u) where
  sibling : Digest
  siblingIsLeft : Bool

/-- The path's node and its sibling in their order. -/
def Step.pair (step : Step Digest) (current : Digest) : Digest × Digest :=
  if step.siblingIsLeft then (step.sibling, current) else (current, step.sibling)

/-- Where the sibling of a node stands; the last node of an odd level is its own. -/
def siblingIndex (index count : Nat) : Nat := if index % 2 = 0 then min (index + 1) (count - 1) else index - 1

theorem pairUp_length (level : List Digest) : (pairUp level).length = (level.length + 1) / 2 := by
  induction level using pairUp.induct with
  | case1 => simp [pairUp]
  | case2 _ => simp [pairUp]
  | case3 _ _ _ ih =>
    rw [pairUp, List.length_cons, ih]
    simp only [List.length_cons]
    omega

theorem pairUp_injective (length : first.length = second.length)
    (same : pairUp first = pairUp second) : first = second := by
  induction first using pairUp.induct generalizing second with
  | case1 => exact (List.eq_nil_of_length_eq_zero length.symm).symm
  | case2 _ =>
    obtain ⟨_, rfl⟩ := List.length_eq_one_iff.mp length.symm
    rw [pairUp, pairUp, List.cons.injEq, Prod.mk.injEq] at same
    rw [same.1.1]
  | case3 _ _ _ ih =>
    cases second with
    | nil => cases length
    | cons _ others =>
      cases others with
      | nil => simp at length
      | cons _ _ =>
        rw [pairUp, pairUp, List.cons.injEq, Prod.mk.injEq] at same
        obtain ⟨⟨rfl, rfl⟩, later⟩ := same
        rw [ih (by simpa using length) later]

theorem mem_of_mem_pairUp (member : pair ∈ pairUp level) :
    pair.1 ∈ level ∧ pair.2 ∈ level := by
  induction level using pairUp.induct with
  | case1 => cases member
  | case2 _ =>
    cases List.mem_singleton.mp member
    simp
  | case3 _ _ _ ih =>
    rcases List.mem_cons.mp member with rfl | later
    · simp
    · obtain ⟨first, second⟩ := ih later
      exact ⟨by simp [first], by simp [second]⟩

theorem siblingIndex_lt (inside : index < count) : siblingIndex index count < count := by
  unfold siblingIndex
  split <;> omega

/-- A node and its sibling are the neighbours at half its index. -/
theorem pairUp_getElem? (found : level[index]? = some current)
    (beside : level[siblingIndex index level.length]? = some sibling) :
    (pairUp level)[index / 2]? =
      some (Step.pair ⟨sibling, decide (siblingIndex index level.length < index)⟩ current) := by
  induction level using pairUp.induct generalizing index with
  | case1 => cases found
  | case2 _ =>
    cases index with
    | zero =>
      cases found
      cases beside
      rfl
    | succ index => simp at found
  | case3 left right rest ih =>
    rcases index with _ | _ | index
    · have next : siblingIndex 0 (left :: right :: rest).length = 1 := by simp [siblingIndex]
      rw [next] at beside ⊢
      cases found
      cases beside
      rfl
    · cases found
      cases beside
      rfl
    · have further : index < rest.length := by
        have inside := (List.getElem?_eq_some_iff.mp found).1
        simp only [List.length_cons] at inside
        omega
      have shifted : siblingIndex (index + 2) (left :: right :: rest).length = siblingIndex index rest.length + 2 := by
        simp only [siblingIndex, List.length_cons]
        split <;> split <;> omega
      rw [shifted] at beside ⊢
      have half : (index + 2) / 2 = index / 2 + 1 := by omega
      rw [half, pairUp, List.getElem?_cons_succ, ih (by simpa using found) (by simpa using beside)]
      simp

section Node
variable (node : Digest → Digest → Digest)

def combine (pair : Digest × Digest) : Digest := node pair.1 pair.2

def nextLevel (level : List Digest) : List Digest := (pairUp level).map (combine node)

/-- One level up along a path. -/
def climb (current : Digest) (step : Step Digest) : Digest := combine node (step.pair current)

/-- Go up while a level has more than one node. The number bounds the levels. -/
def rootFrom : Nat → List Digest → Option Digest
  | 0, level => level.head?
  | bound + 1, level => if 1 < level.length then rootFrom bound (nextLevel node level) else level.head?

/-- The root over some leaves; there is none over no leaf. -/
def root (leaves : List Digest) : Option Digest := rootFrom node leaves.length leaves

/-- The siblings met on the way up from an index. -/
def pathFrom : Nat → List Digest → Nat → List (Step Digest)
  | 0, _, _ => []
  | bound + 1, level, index =>
    if 1 < level.length then
      match level[siblingIndex index level.length]? with
      | none => []
      | some sibling =>
        ⟨sibling, decide (siblingIndex index level.length < index)⟩ ::
          pathFrom bound (nextLevel node level) (index / 2)
    else []

def path (leaves : List Digest) (index : Nat) : List (Step Digest) := pathFrom node leaves.length leaves index

/-- All that is combined on the way to the root. -/
def pairsFrom : Nat → List Digest → List (Digest × Digest)
  | 0, _ => []
  | bound + 1, level =>
    if 1 < level.length then pairUp level ++ pairsFrom bound (nextLevel node level) else []

def pairs (leaves : List Digest) : List (Digest × Digest) := pairsFrom node leaves.length leaves

/-- All that is combined along a path. -/
def climbed : Digest → List (Step Digest) → List (Digest × Digest)
  | _, [] => []
  | current, step :: rest => step.pair current :: climbed (climb node current step) rest

variable {node}

theorem nextLevel_length (level : List Digest) : (nextLevel node level).length = (level.length + 1) / 2 := by
  rw [nextLevel, List.length_map, pairUp_length]

theorem nextLevel_le (many : 1 < level.length) (bounded : level.length ≤ bound + 1) :
    (nextLevel node level).length ≤ bound := by
  rw [nextLevel_length]
  omega

/-! ### Paths lead to the root -/

theorem foldl_climb_pathFrom (bounded : level.length ≤ bound) (found : level[index]? = some leaf) :
    rootFrom node bound level = some ((pathFrom node bound level index).foldl (climb node) leaf) := by
  induction bound generalizing level index leaf with
  | zero =>
    rw [List.eq_nil_of_length_eq_zero (Nat.le_zero.mp bounded)] at found
    cases found
  | succ _ ih =>
    have inside : index < level.length := (List.getElem?_eq_some_iff.mp found).1
    rw [rootFrom, pathFrom]
    by_cases many : 1 < level.length
    · obtain ⟨sibling, beside⟩ : ∃ sibling, level[siblingIndex index level.length]? = some sibling :=
        ⟨_, List.getElem?_eq_getElem (siblingIndex_lt inside)⟩
      have above : (nextLevel node level)[index / 2]? = some (climb node leaf
          ⟨sibling, decide (siblingIndex index level.length < index)⟩) := by
        rw [nextLevel, List.getElem?_map, pairUp_getElem? found beside]
        rfl
      simp only [if_pos many, beside, List.foldl_cons]
      exact ih (nextLevel_le many bounded) above
    · have first : index = 0 := by omega
      rw [if_neg many, if_neg many, List.head?_eq_getElem?, ← first]
      exact found

theorem root_eq_foldl_path (found : leaves[index]? = some leaf) :
    root node leaves = some ((path node leaves index).foldl (climb node) leaf) :=
  foldl_climb_pathFrom (Nat.le_refl _) found

/-! ### Roots of one width determine their leaves -/

theorem map_injOn {items : Set Item}
    (free : Set.InjOn image items) {first second : List Item} (left : ∀ item ∈ first, item ∈ items)
    (right : ∀ item ∈ second, item ∈ items) (same : first.map image = second.map image) : first = second := by
  induction first generalizing second with
  | nil => exact (List.map_eq_nil_iff.mp same.symm).symm
  | cons _ _ ih =>
    cases second with
    | nil => cases same
    | cons _ _ =>
      rw [List.map_cons, List.map_cons, List.cons.injEq] at same
      rw [List.forall_mem_cons] at left right
      rw [free left.1 right.1 same.1, ih left.2 right.2 same.2]

theorem rootFrom_injective (free : Set.InjOn (combine node) combined)
    (length : first.length = second.length) (bounded : first.length ≤ bound)
    (left : ∀ pair ∈ pairsFrom node bound first, pair ∈ combined)
    (right : ∀ pair ∈ pairsFrom node bound second, pair ∈ combined)
    (same : rootFrom node bound first = rootFrom node bound second) : first = second := by
  induction bound generalizing first second with
  | zero =>
    have empty : first = [] := List.eq_nil_of_length_eq_zero (Nat.le_zero.mp bounded)
    subst empty
    exact (List.eq_nil_of_length_eq_zero length.symm).symm
  | succ _ ih =>
    rw [rootFrom, rootFrom, ← length] at same
    rw [pairsFrom] at left right
    rw [← length] at right
    by_cases many : 1 < first.length
    · rw [if_pos many, List.forall_mem_append] at left right
      rw [if_pos many, if_pos many] at same
      have above : nextLevel node first = nextLevel node second := by
        refine ih ?_ (nextLevel_le many bounded) left.2 right.2 same
        rw [nextLevel_length, nextLevel_length, length]
      exact pairUp_injective length (map_injOn free left.1 right.1 above)
    · rw [if_neg many, if_neg many] at same
      cases first with
      | nil => exact (List.eq_nil_of_length_eq_zero length.symm).symm
      | cons _ rest =>
        cases rest with
        | nil =>
          obtain ⟨_, rfl⟩ := List.length_eq_one_iff.mp length.symm
          rw [Option.some.inj same]
        | cons _ _ => simp at many

/-- Over equally many leaves, and without collisions, equal roots come from equal leaves. -/
theorem root_injective (free : Set.InjOn (combine node) combined)
    (length : first.length = second.length) (left : ∀ pair ∈ pairs node first, pair ∈ combined)
    (right : ∀ pair ∈ pairs node second, pair ∈ combined)
    (same : root node first = root node second) : first = second := by
  rw [root, root, ← length] at same
  rw [pairs, ← length] at right
  exact rootFrom_injective free length (Nat.le_refl _) left right same

/-! ### Paths that lead to the root start inside the tree -/

/-- The digest is a leaf or was combined from a pair of the tree. -/
def Inside (node : Digest → Digest → Digest) (leaves : List Digest) (digest : Digest) : Prop :=
  digest ∈ leaves ∨ ∃ pair ∈ pairs node leaves, digest = combine node pair

theorem pairsFrom_parts (member : pair ∈ pairsFrom node bound level) (part : digest = pair.1 ∨ digest = pair.2) :
    digest ∈ level ∨ ∃ below ∈ pairsFrom node bound level, digest = combine node below := by
  induction bound generalizing level with
  | zero => cases member
  | succ _ ih =>
    rw [pairsFrom] at member ⊢
    split at member
    · rename_i many
      rw [if_pos many]
      rcases List.mem_append.mp member with lowest | higher
      · obtain ⟨first, second⟩ := mem_of_mem_pairUp lowest
        rcases part with rfl | rfl
        · exact .inl first
        · exact .inl second
      · right
        rcases ih higher with above | ⟨below, listed, made⟩
        · obtain ⟨below, listed, made⟩ := List.mem_map.mp above
          exact ⟨below, List.mem_append_left _ listed, made.symm⟩
        · exact ⟨below, List.mem_append_right _ listed, made⟩
    · cases member

theorem rootFrom_inside (reached : rootFrom node bound level = some top) :
    top ∈ level ∨ ∃ pair ∈ pairsFrom node bound level, top = combine node pair := by
  induction bound generalizing level with
  | zero => exact .inl (List.mem_of_head? reached)
  | succ _ ih =>
    rw [rootFrom] at reached
    rw [pairsFrom]
    split at reached
    · rename_i many
      rw [if_pos many]
      right
      rcases ih reached with above | ⟨pair, listed, made⟩
      · obtain ⟨pair, listed, made⟩ := List.mem_map.mp above
        exact ⟨pair, List.mem_append_left _ listed, made.symm⟩
      · exact ⟨pair, List.mem_append_right _ listed, made⟩
    · exact .inl (List.mem_of_head? reached)

theorem inside_of_climbed
    (free : Set.InjOn (combine node) combined) (tree : ∀ pair ∈ pairs node leaves, pair ∈ combined)
    (walk : ∀ pair ∈ climbed node start steps, pair ∈ combined)
    (apart : ∀ pair ∈ combined, combine node pair ∉ leaves)
    (top : Inside node leaves (steps.foldl (climb node) start)) : Inside node leaves start := by
  induction steps generalizing start with
  | nil => exact top
  | cons step _ ih =>
    rw [climbed, List.forall_mem_cons] at walk
    rcases ih walk.2 top with leaf | ⟨pair, listed, made⟩
    · exact absurd leaf (apart _ walk.1)
    · cases free walk.1 (tree pair listed) made
      have part : start = (step.pair start).1 ∨ start = (step.pair start).2 := by
        unfold Step.pair
        split
        · exact .inr rfl
        · exact .inl rfl
      exact pairsFrom_parts listed part

/-- Without collisions, and with leaves apart from inner nodes, a path that leads to the root starts
at a leaf or at an inner node of the tree, whatever siblings it names. -/
theorem inside_of_root (free : Set.InjOn (combine node) combined) (tree : ∀ pair ∈ pairs node leaves, pair ∈ combined)
    (walk : ∀ pair ∈ climbed node start steps, pair ∈ combined)
    (apart : ∀ pair ∈ combined, combine node pair ∉ leaves)
    (reached : root node leaves = some (steps.foldl (climb node) start)) : Inside node leaves start :=
  inside_of_climbed free tree walk apart (rootFrom_inside reached)

end Node

end Aequora.Base.MerkleTree
