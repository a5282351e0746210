import Aequora.Base.Run
import Aequora.Base.SourceOrder
import Aequora.Protocol.Types

/-! Partition hierarchies: parent and child selectors, the search that decides descent, and the check
that keeps every hierarchy acyclic. -/

namespace Aequora.Scope

open Aequora.Base Aequora.Protocol Relation Run

inductive PartitionPolicyError where
  | tooComplex (maximum : Nat)
  | hierarchyCycle

/-- The edges from parents to children, each once. -/
structure PartitionHierarchy where
  edges : List (Partition × Partition)

namespace PartitionHierarchy
variable (hierarchy : PartitionHierarchy)

def Edge (parent child : Partition) : Prop := (parent, child) ∈ hierarchy.edges

def children (node : Partition) : List Partition :=
  (hierarchy.edges.filter (·.1 = node)).map Prod.snd

/-- The loop of the search; one unit of fuel a round. -/
def search (candidate : Partition) : Nat → List Partition → List Partition → Bool
  | fuel + 1, node :: rest, visited =>
    if node ∈ visited then search candidate fuel rest visited
    else if candidate ∈ hierarchy.children node then true
    else search candidate fuel (rest ++ hierarchy.children node) (node :: visited)
  | _, _, _ => false

/-- The candidate is the ancestor or a transitive child of it. -/
def isDescendant (ancestor candidate : Partition) : Bool :=
  ancestor = candidate || hierarchy.search candidate (hierarchy.edges.length + 1) [ancestor] []

/-- The hierarchy after adding an edge, and whether the edge was accepted. -/
def addChild (parent child : Partition) : PartitionHierarchy × Except PartitionPolicyError Unit :=
  if parent = child ∨ hierarchy.isDescendant child parent then (hierarchy, .error .hierarchyCycle)
  else ({ edges := hierarchy.edges.insert (parent, child) }, .ok ())

def step (edge : Partition × Partition) : PartitionHierarchy := (hierarchy.addChild edge.1 edge.2).1

/-- The edges whose parent the search has not visited. -/
def unvisited (visited : List Partition) : List (Partition × Partition) :=
  hierarchy.edges.filter (·.1 ∉ visited)

variable {hierarchy}

theorem mem_children : child ∈ hierarchy.children node ↔ hierarchy.Edge node child := by
  simp [children, Edge]

/-- Visiting a node moves its edges from the unvisited ones to the pending nodes. -/
theorem unvisited_cons (fresh : node ∉ visited) :
    (hierarchy.unvisited (node :: visited)).length + (hierarchy.children node).length =
      (hierarchy.unvisited visited).length := by
  unfold unvisited children
  induction hierarchy.edges with
  | nil => rfl
  | cons edge _ ih =>
    by_cases same : edge.1 = node
    · simp_all
      omega
    · by_cases known : edge.1 ∈ visited
      · simp_all
      · simp_all
        omega

/-- Every edge out of a visited node leads to another node than the candidate, and one that is visited or waits. -/
def Explored (hierarchy : PartitionHierarchy) (candidate : Partition) (pending visited : List Partition) : Prop :=
  ∀ node ∈ visited, ∀ child, hierarchy.Edge node child → child ≠ candidate ∧ (child ∈ visited ∨ child ∈ pending)

theorem Explored.exit (explored : hierarchy.Explored candidate pending visited) (known : node ∈ visited)
    (path : TransGen hierarchy.Edge node candidate) : ∃ waiting ∈ pending, TransGen hierarchy.Edge waiting candidate := by
  induction path using TransGen.head_induction_on with
  | single linked => exact absurd rfl (explored _ known _ linked).1
  | head linked path ih =>
    rcases (explored _ known _ linked).2 with visited | waits
    · exact ih visited
    · exact ⟨_, waits, path⟩

/-- With enough fuel the search succeeds exactly when the candidate lies below a pending node. -/
theorem search_iff (explored : hierarchy.Explored candidate pending visited)
    (enough : pending.length + (hierarchy.unvisited visited).length ≤ fuel) :
    hierarchy.search candidate fuel pending visited = true ↔
      ∃ node ∈ pending, TransGen hierarchy.Edge node candidate := by
  -- Each round takes one from the fuel and exactly one from the pending nodes and unvisited edges.
  induction fuel generalizing pending visited with
  | zero =>
    have empty : pending = [] := List.eq_nil_of_length_eq_zero (by omega)
    simp [search, empty]
  | succ fuel ih =>
    cases pending with
    | nil => simp [search]
    | cons node rest =>
      rw [List.length_cons] at enough
      rw [search]
      split
      · rename_i known
        have remaining : hierarchy.Explored candidate rest visited := by
          intro parent inside child linked
          obtain ⟨other, met⟩ := explored parent inside child linked
          refine ⟨other, ?_⟩
          rcases met with met | met
          · exact .inl met
          · rcases List.mem_cons.mp met with rfl | waits
            · exact .inl known
            · exact .inr waits
        rw [ih remaining (by omega)]
        simp only [List.mem_cons, exists_eq_or_imp]
        exact ⟨.inr, fun found => found.elim (remaining.exit known) id⟩
      · rename_i fresh
        split
        · rename_i found
          exact ⟨fun _ => ⟨node, List.mem_cons_self, .single (mem_children.mp found)⟩, fun _ => rfl⟩
        · rename_i missing
          have counted := @unvisited_cons hierarchy _ _ fresh
          have explores : hierarchy.Explored candidate (rest ++ hierarchy.children node) (node :: visited) := by
            intro parent inside child linked
            rw [List.mem_append, mem_children]
            rcases List.mem_cons.mp inside with rfl | old
            · refine ⟨?_, .inr (.inr linked)⟩
              rintro rfl
              exact missing (mem_children.mpr linked)
            · obtain ⟨other, met⟩ := explored parent old child linked
              refine ⟨other, ?_⟩
              grind
          rw [ih explores (by rw [List.length_append]; omega)]
          simp only [List.mem_append, or_and_right, exists_or, List.mem_cons, exists_eq_left]
          rw [or_comm]
          refine or_congr ⟨?_, ?_⟩ Iff.rfl
          · intro below
            obtain ⟨child, linked, path⟩ := below
            exact .head (mem_children.mp linked) path
          · intro below
            obtain ⟨child, linked, path⟩ := TransGen.head'_iff.mp below
            rcases reflTransGen_iff_eq_or_transGen.mp path with rfl | path
            · exact absurd (mem_children.mpr linked) missing
            · exact ⟨child, mem_children.mpr linked, path⟩

theorem isDescendant_iff (ancestor candidate : Partition) :
    hierarchy.isDescendant ancestor candidate = true ↔ ReflTransGen hierarchy.Edge ancestor candidate := by
  have searched : hierarchy.search candidate (hierarchy.edges.length + 1) [ancestor] [] = true ↔ _ :=
    search_iff nofun (by simp [unvisited, Nat.add_comm])
  simp only [isDescendant, Bool.or_eq_true, decide_eq_true_eq, searched, List.mem_singleton, exists_eq_left,
    reflTransGen_iff_eq_or_transGen]
  rw [eq_comm]

theorem addChild_eq (hierarchy : PartitionHierarchy) (parent child : Partition) :
    hierarchy.addChild parent child =
      if hierarchy.isDescendant child parent then (hierarchy, .error .hierarchyCycle)
      else ({ edges := hierarchy.edges.insert (parent, child) }, .ok ()) := by
  have «self» : parent = child → hierarchy.isDescendant child parent = true := by
    rintro rfl
    exact (isDescendant_iff parent parent).mpr .refl
  rw [addChild]
  by_cases below : hierarchy.isDescendant child parent = true
  · rw [if_pos below, if_pos (.inr below)]
  · rw [if_neg below, if_neg (not_or.mpr ⟨mt «self» below, below⟩)]

/-- What the hierarchy answers and accepts. -/
structure Exact (hierarchy : PartitionHierarchy) : Prop where
  acyclic : Acyclic hierarchy.Edge
  descends : ∀ ancestor candidate,
    hierarchy.isDescendant ancestor candidate = true ↔ ReflTransGen hierarchy.Edge ancestor candidate
  refuses : ∀ parent child, (∃ error, (hierarchy.addChild parent child).2 = .error error) ↔
    ¬Acyclic (WithEdge hierarchy.Edge parent child)
  unchanged : ∀ parent child error, (hierarchy.addChild parent child).2 = .error error →
    (hierarchy.addChild parent child).1 = hierarchy

theorem exact_of_acyclic (acyclic : Acyclic hierarchy.Edge) : hierarchy.Exact where
  acyclic
  descends := isDescendant_iff
  refuses parent child := by
    rw [acyclic_withEdge_iff acyclic, not_not, ← isDescendant_iff, addChild_eq]
    split <;> simp_all
  unchanged parent child error refused := by
    rw [addChild_eq] at refused ⊢
    split at refused
    · rename_i below
      rw [if_pos below]
    · cases refused

theorem step_acyclic (acyclic : Acyclic hierarchy.Edge) (edge : Partition × Partition) :
    Acyclic (hierarchy.step edge).Edge := by
  rw [step, addChild_eq]
  split
  · exact acyclic
  · rename_i apart
    have added : Edge { edges := hierarchy.edges.insert edge } = WithEdge hierarchy.Edge edge.1 edge.2 := by
      funext parent child
      simp [Edge, WithEdge, Prod.ext_iff, or_comm]
    rw [added, acyclic_withEdge_iff acyclic, ← isDescendant_iff]
    exact apart

end PartitionHierarchy

end Aequora.Scope
