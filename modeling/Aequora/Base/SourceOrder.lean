import Mathlib.Data.Fintype.Card
import Mathlib.Data.List.Nodup
import Mathlib.Data.List.Perm.Subperm
import Mathlib.Data.Set.Finite.Basic
import Mathlib.Logic.Relation

/-! Orders in which every node comes after its sources. Finitely many nodes have one exactly when
their edges form no cycle. The rank of a node is the length of the longest chain of edges that ends
at it. -/

namespace Aequora.Base

open List Relation

universe u

section Order
variable {Node : Type u} (edge : Node → Node → Prop) (nodes : List Node)

/-- An edge between two of the nodes. -/
def Among (source target : Node) : Prop := source ∈ nodes ∧ target ∈ nodes ∧ edge source target

/-- No chain of edges returns to its start. -/
def Acyclic : Prop := ∀ node, ¬TransGen edge node node

/-- Every placed node comes after all nodes with an edge to it. -/
def SourcesBefore (placed : List Node) : Prop :=
  ∀ before node after, placed = before ++ node :: after → ∀ source ∈ nodes, edge source node → source ∈ before

/-- The edges together with one more. -/
def WithEdge (source target first second : Node) : Prop := edge first second ∨ first = source ∧ second = target

variable {edge nodes}

theorem transGen_withEdge (path : TransGen (WithEdge edge source target) start stop) :
    TransGen edge start stop ∨ ReflTransGen edge start source ∧ ReflTransGen edge target stop := by
  induction path with
  | single linked =>
    rcases linked with linked | ⟨rfl, rfl⟩
    · exact .inl (.single linked)
    · exact .inr ⟨.refl, .refl⟩
  | tail _ linked ih =>
    rcases linked with linked | ⟨rfl, rfl⟩
    · rcases ih with old | ⟨before, after⟩
      · exact .inl (old.tail linked)
      · exact .inr ⟨before, after.tail linked⟩
    · rcases ih with old | ⟨before, _⟩
      · exact .inr ⟨old.to_reflTransGen, .refl⟩
      · exact .inr ⟨before, .refl⟩

/-- A new edge closes a cycle exactly when its source was reachable from its target. -/
theorem acyclic_withEdge_iff (acyclic : Acyclic edge) :
    Acyclic (WithEdge edge source target) ↔ ¬ReflTransGen edge target source := by
  constructor
  · intro extended path
    exact extended source (.head' (.inr ⟨rfl, rfl⟩) (ReflTransGen.mono (fun _ _ => Or.inl) _ _ path))
  · intro apart node cycle
    rcases transGen_withEdge cycle with old | ⟨before, after⟩
    · exact acyclic node old
    · exact apart (after.trans before)

theorem SourcesBefore.snoc (earlier : SourcesBefore edge nodes placed)
    (free : ∀ source ∈ nodes, edge source node → source ∈ placed) :
    SourcesBefore edge nodes (placed ++ [node]) := by
  intro before last after split source inside linked
  rcases eq_nil_or_concat after with rfl | ⟨rest, final, rfl⟩
  · obtain ⟨rfl, same⟩ := append_inj' split rfl
    cases singleton_inj.mp same
    exact free source inside linked
  · have joined : placed ++ [node] = (before ++ last :: rest) ++ [final] := by simpa using split
    obtain ⟨same, -⟩ := append_inj' joined rfl
    exact earlier before last rest same source inside linked

theorem mem_of_acyclic (acyclic : Acyclic (Among edge nodes)) {inside : Node → Prop}
    (closed : ∀ node ∈ nodes, (∀ source ∈ nodes, edge source node → inside source) → inside node) :
    ∀ node ∈ nodes, inside node := by
  let reaches : { node // node ∈ nodes } → { node // node ∈ nodes } → Prop :=
    fun first second => TransGen (Among edge nodes) first.1 second.1
  have transitive : IsTrans _ reaches := ⟨fun _ _ _ => TransGen.trans⟩
  have irreflexive : Std.Irrefl reaches := ⟨fun node => acyclic node.1⟩
  have finite : Finite { node // node ∈ nodes } := finite_toSet nodes
  have founded : WellFounded reaches := Finite.wellFounded_of_trans_of_irrefl reaches
  intro node member
  suffices all : ∀ node : { node // node ∈ nodes }, inside node.1 from all ⟨node, member⟩
  intro node
  induction node using founded.induction with
  | _ node ih =>
    refine closed node.1 node.2 fun source known linked => ?_
    exact ih ⟨source, known⟩ (.single ⟨known, node.2, linked⟩)

theorem SourcesBefore.acyclic [DecidableEq Node] (unique : placed.Nodup) (all : ∀ node ∈ nodes, node ∈ placed)
    (ordered : SourcesBefore edge nodes placed) : Acyclic (Among edge nodes) := by
  have grows : ∀ first second, Among edge nodes first second → placed.idxOf first < placed.idxOf second := by
    rintro first second ⟨known, member, linked⟩
    obtain ⟨before, after, split⟩ := append_of_mem (all second member)
    have earlier := ordered before second after split first known linked
    rw [split] at unique
    have fresh : second ∉ before := by
      intro twice
      exact (nodup_append.mp unique).2.2 second twice second mem_cons_self rfl
    rw [split, idxOf_append_of_mem earlier, idxOf_append_of_notMem fresh, idxOf_cons_self]
    exact lt_of_lt_of_le (idxOf_lt_length_of_mem earlier) (Nat.le_add_right _ _)
  intro node cycle
  have lifted : TransGen (· < ·) (placed.idxOf node) (placed.idxOf node) :=
    TransGen.lift (fun node => placed.idxOf node) grows _ _ cycle
  rw [transGen_eq_self] at lifted
  exact lt_irrefl _ lifted

theorem exists_order_of_acyclic (acyclic : Acyclic (Among edge nodes)) (distinct : placed.Nodup)
    (known : ∀ node ∈ placed, node ∈ nodes) (ordered : SourcesBefore edge nodes placed) :
    ∃ order, order.Nodup ∧ (∀ node, node ∈ order ↔ node ∈ nodes) ∧ SourcesBefore edge nodes order := by
  generalize left : nodes.length - placed.length = remaining
  induction remaining generalizing placed with
  | zero =>
    refine ⟨placed, distinct, fun node => ⟨known node, ?_⟩, ordered⟩
    have short := (subperm_of_subset distinct known).perm_of_length_le (Nat.sub_eq_zero_iff_le.mp left)
    exact short.mem_iff.mpr
  | succ _ ih =>
    by_cases complete : ∀ node ∈ nodes, node ∈ placed
    · exact ⟨placed, distinct, fun node => ⟨known node, complete node⟩, ordered⟩
    · -- Otherwise some node outside has all its sources placed.
      have open' : ∃ node ∈ nodes, node ∉ placed ∧ ∀ source ∈ nodes, edge source node → source ∈ placed := by
        by_contra none
        refine complete (mem_of_acyclic acyclic fun node member sources => ?_)
        by_contra missing
        exact none ⟨node, member, missing, sources⟩
      obtain ⟨node, member, missing, sources⟩ := open'
      apply @ih (placed ++ [node])
      · rw [← concat_eq_append]
        exact distinct.concat missing
      · rw [forall_mem_append, forall_mem_singleton]
        exact ⟨known, member⟩
      · exact ordered.snoc sources
      · rw [length_append, length_singleton]
        omega

theorem exists_order_iff_acyclic (unique : nodes.Nodup) :
    (∃ order, order.Perm nodes ∧ SourcesBefore edge nodes order) ↔ Acyclic (Among edge nodes) := by
  classical
  constructor
  · rintro ⟨order, same, ordered⟩
    exact ordered.acyclic (same.nodup_iff.mpr unique) fun node member => same.mem_iff.mpr member
  · intro acyclic
    have empty : SourcesBefore edge nodes [] := by
      intro _ _ _ split
      simp at split
    obtain ⟨order, distinct, same, ordered⟩ := exists_order_of_acyclic acyclic nodup_nil (by simp) empty
    exact ⟨order, (perm_ext_iff_of_nodup distinct unique).mpr same, ordered⟩

end Order

section Rank
variable {Node : Type u}

/-- A chain of the given number of edges ends at the node. -/
inductive ChainTo (edge : Node → Node → Prop) : Nat → Node → Prop where
  | here (node : Node) : ChainTo edge 0 node
  | next {length : Nat} {source node : Node} (chain : ChainTo edge length source) (last : edge source node) :
      ChainTo edge (length + 1) node

/-- The longest chain that ends at the node has the given length. -/
def Rank (edge : Node → Node → Prop) (length : Nat) (node : Node) : Prop :=
  ChainTo edge length node ∧ ∀ other, ChainTo edge other node → other ≤ length

theorem Rank.of_no_source (none : ∀ source, ¬edge source node) : Rank edge 0 node := by
  refine ⟨.here node, fun other chain => ?_⟩
  cases chain with
  | here => exact le_refl 0
  | next _ last => exact absurd last (none _)

theorem Rank.of_sources (linked : edge highest node) (top : Rank edge level highest)
    (below : ∀ source, edge source node → ∃ lower ≤ level, Rank edge lower source) :
    Rank edge (level + 1) node := by
  refine ⟨top.1.next linked, fun other chain => ?_⟩
  cases chain with
  | here => exact Nat.zero_le _
  | next chain last =>
    obtain ⟨_, bounded, -, longest⟩ := below _ last
    exact Nat.succ_le_succ ((longest _ chain).trans bounded)

end Rank

end Aequora.Base
