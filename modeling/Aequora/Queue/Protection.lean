import Aequora.Queue.CompactionPlan

/-! What a compaction reaches across: barriers and possibly sent operations reset the pass,
operations with a merge or custom policy and sensitive ones on the same entity do not. -/

namespace Aequora.Queue

open Std Aequora.Base Aequora.Protocol

section Protection
variable (codec : EnvelopeCodec) (entries : List QueueEntry) (registry : OptimizationRegistry)

def removedBefore (turn : Nat) : List OperationId :=
  match passAt codec entries registry turn with
  | .ok pass => pass.plan.removeOperations
  | .error _ => []

/-- The entry was superseded or cancelled by the one whose turn it was. -/
def SupersededIn (old : QueueEntry) (turn : Nat) : Prop :=
  old.id ∈ removedBefore codec entries registry (turn + 1) ∧ old.id ∉ removedBefore codec entries registry turn

instance (old : QueueEntry) (turn : Nat) : Decidable (SupersededIn codec entries registry old turn) :=
  inferInstanceAs (Decidable (_ ∧ _))

/-- The entry at the position still holds its slot when the turn's entry takes it, and gives way. -/
def Meets (position turn : Nat) (old : QueueEntry) : Prop :=
  ∃ slot next, Open entries registry (removedBefore codec entries registry turn) turn slot position old ∧
    entries[turn]? = some next ∧ registry.slot next = some slot ∧
    slot.givesWay registry entries old next = true

def OperationOptimization.guarded (descriptor : OperationOptimization) : Bool :=
  (descriptor.shape = .create || descriptor.shape = .delete || descriptor.shape = .append) &&
    !descriptor.certifiedSensitiveCompaction

/-- The entry has a merge or custom policy, or is an uncertified create, delete or append operation
on the entity of the other. -/
def reserved (old entry : QueueEntry) : Bool :=
  (registry.optimization entry).compaction = .merge || (registry.optimization entry).compaction = .custom ||
    (entry.operation.entity = old.operation.entity && (registry.optimization entry).guarded)

/-- No entry between the positions has the property. -/
def NoneBetween (position turn : Nat) (excluded : QueueEntry → Bool) : Prop :=
  ∀ between, position < between → between < turn → ∀ entry, entries[between]? = some entry → excluded entry = false

/-- No operation is superseded or cancelled across a protected one. -/
def Uncrossed : Prop :=
  ∀ position turn old, entries[position]? = some old → SupersededIn codec entries registry old turn →
    NoneBetween entries position turn fun entry => registry.resets entry || reserved registry old entry

/-- Between an entry and the next one in its slot that it gives way to, no operation is reserved. -/
def NoneReserved : Prop :=
  ∀ position turn old, Meets codec entries registry position turn old →
    NoneBetween entries position turn (reserved registry old)

end Protection

section Crossing
variable {pass : Pass}

theorem removedBefore_of_passAt (reached : passAt codec entries registry turn = .ok pass) :
    removedBefore codec entries registry turn = pass.plan.removeOperations := by
  rw [removedBefore, reached]

theorem passAt_of_le (inside : last ≤ entries.length) (below : turn ≤ last)
    (reached : passAt codec entries registry last = .ok pass) :
    ∃ earlier, passAt codec entries registry turn = .ok earlier := by
  induction last generalizing pass with
  | zero =>
    cases Nat.le_zero.mp below
    exact ⟨pass, reached⟩
  | succ _ ih =>
    rcases Nat.le_succ_iff.mp below with below | rfl
    · rw [passAt_succ (List.getElem?_eq_getElem inside), bind_eq_ok_iff] at reached
      obtain ⟨_, reached, -⟩ := reached
      exact ih (Nat.le_of_succ_le inside) below reached
    · exact ⟨pass, reached⟩

theorem removedBefore_of_length_le (beyond : entries.length ≤ turn) :
    removedBefore codec entries registry (turn + 1) = removedBefore codec entries registry turn := by
  have short : entries.zipIdx.length ≤ turn := by simpa using beyond
  rw [removedBefore, removedBefore, passAt, passAt, List.take_of_length_le short,
    List.take_of_length_le (short.trans (Nat.le_succ turn))]

theorem prior_mem_supersessions (slot : Slot) (prior next : QueueEntry) :
    prior.id ∈ (slot.supersessions prior next).map Supersession.oldOperationId := by
  cases slot <;> exact List.mem_cons_self

theorem supersededIn_iff (planned : planCompaction codec entries registry maxOperations = .ok plan)
    (found : entries[position]? = some old) (earlier : position < turn) :
    SupersededIn codec entries registry old turn ↔ Meets codec entries registry position turn old := by
  obtain ⟨distinct, _, -, reached, -⟩ := planCompaction_tracks planned
  by_cases inside : turn < entries.length
  · obtain ⟨_, afterwards⟩ := passAt_of_le le_rfl inside reached
    obtain ⟨next, present⟩ : ∃ next, entries[turn]? = some next := ⟨_, List.getElem?_eq_getElem inside⟩
    obtain ⟨_, beforehand, turned⟩ := bind_eq_ok_iff.mp ((passAt_succ present).symm.trans afterwards)
    have tracks := passAt_tracks distinct inside.le beforehand
    rw [SupersededIn, Meets, removedBefore_of_passAt beforehand, removedBefore_of_passAt afterwards]
    cases compactEntry_turn turned with
    | reset resets _ retires =>
      rw [retires.removals, List.map_nil, List.append_nil]
      refine iff_of_false (fun both => both.2 both.1) ?_
      rintro ⟨slot, other, -, present', taken, -⟩
      cases present.symm.trans present'
      rw [continues_of_slot taken] at resets
      cases resets
    | passed _ free kept retires =>
      rw [retires.removals, List.map_nil, List.append_nil]
      refine iff_of_false (fun both => both.2 both.1) ?_
      rintro ⟨slot, other, -, present', taken, -⟩
      cases present.symm.trans present'
      rw [free] at taken
      cases taken
    | remembered slot taken stays held retires =>
      rw [retires.removals, List.map_nil, List.append_nil]
      refine iff_of_false (fun both => both.2 both.1) ?_
      rintro ⟨other, next', held, present', taken', givesWay⟩
      cases present.symm.trans present'
      cases taken.symm.trans taken'
      rw [stays position old ((tracks.held _ _).mpr ⟨old, held⟩) found] at givesWay
      cases givesWay
    | superseded slot taken _ prior holding atPlace givesWay held retires =>
      obtain ⟨_, open'⟩ := (tracks.held _ _).mp holding
      cases atPlace.symm.trans open'.found
      rw [retires.removals]
      constructor
      · rintro ⟨removed, kept⟩
        have listed := (List.mem_append.mp removed).resolve_left kept
        have same : old.id = prior.id := by
          refine (List.mem_pair.mp ((slot.removed_sublist prior next).subset listed)).resolve_right ?_
          exact fun same => earlier.ne (position_unique distinct found present same)
        cases position_unique distinct found atPlace same
        cases found.symm.trans atPlace
        exact ⟨slot, next, open', present, taken, givesWay⟩
      · rintro ⟨_, _, held, present', taken', -⟩
        cases present.symm.trans present'
        cases taken.symm.trans taken'
        cases holding.symm.trans ((tracks.held _ _).mpr ⟨old, held⟩)
        cases found.symm.trans atPlace
        exact ⟨List.mem_append_right _ (prior_mem_supersessions ..), held.kept⟩
  · have beyond := Nat.le_of_not_lt inside
    rw [SupersededIn, removedBefore_of_length_le beyond]
    refine iff_of_false (fun both => both.2 both.1) ?_
    rintro ⟨_, _, -, present, -⟩
    rw [List.getElem?_eq_none beyond] at present
    cases present

end Crossing

def sampleAround (between : QueueEntry) : List QueueEntry :=
  [sampleEntry 1 1 1 none, between, sampleEntry 3 1 1 none]

def sampleReplacement : CompactionPlan where
  operationsBefore := 3
  operationsAfter := 2
  removeOperations := [⟨1⟩]
  supersessions := [{ oldOperationId := ⟨1⟩, newOperationId := some ⟨3⟩, reason := .replacedByLatest }]
  bytesSaved := 0
  barriers := 0
  sensitivePreserved := 1

end Aequora.Queue
