import Mathlib.Data.List.Flatten
import Mathlib.Data.Set.Function

/-! Digests of parts written one after the other without lengths. Such a digest tells items apart
exactly when no two of them are different cuts of one sequence. -/

namespace Aequora.Base

universe u v w
variable {Item : Type u} {Symbol : Type v}

/-- The lengths of the parts of an item. -/
def cuts (parts : Item → List (List Symbol)) (item : Item) : List Nat := (parts item).map List.length

/-- Items that are the same sequence are cut at the same places. -/
def CutAlike (parts : Item → List (List Symbol)) (items : Set Item) : Prop :=
  ∀ first ∈ items, ∀ second ∈ items, (parts first).flatten = (parts second).flatten →
    cuts parts first = cuts parts second

/-- A digest without collisions separates items exactly when they are cut alike. -/
theorem separates_iff_cutAlike {digest : List Symbol → Digest}
    (free : Set.InjOn digest (Set.image (fun item => (parts item).flatten) items)) :
    (∀ first ∈ items, ∀ second ∈ items,
        digest (parts first).flatten = digest (parts second).flatten → parts first = parts second) ↔
      CutAlike parts items := by
  constructor
  · intro separates first known second listed same
    rw [cuts, separates first known second listed (congrArg digest same), cuts]
  · intro alike first known second listed same
    have joined := free ⟨first, known, rfl⟩ ⟨second, listed, rfl⟩ same
    exact List.eq_iff_flatten_eq.mpr ⟨joined, alike first known second listed joined⟩

end Aequora.Base
