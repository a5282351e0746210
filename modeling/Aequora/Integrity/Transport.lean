import Aequora.Integrity.Proof

/-! Evidence from elsewhere. The counts of a received snapshot are whatever the sender wrote, and
the check adds them up in 64 bits. -/

namespace Aequora.Integrity

open Std Aequora.Base Aequora.Protocol

inductive OverflowPolicy where
  | checked | wrapping

open OverflowPolicy

def OverflowPolicy.sum (policy : OverflowPolicy) (counts : List Nat) : Option Nat :=
  match policy with
  | .checked => counts.foldlM checkedAdd 0
  | .wrapping => some (counts.foldl wrappingAdd 0)

theorem OverflowPolicy.sum_checked (counts : List Nat) : checked.sum counts = checkedAdd 0 (exactSum counts) :=
  foldlM_checkedAdd (Nat.zero_le _) counts

theorem OverflowPolicy.sum_wrapping (counts : List Nat) :
    wrapping.sum counts = some (exactSum counts % (u64Max + 1)) := by
  rw [sum, foldl_wrappingAdd (Nat.zero_le _), Nat.zero_add]

namespace IntegritySnapshot
variable (blake3 : Hash) (snapshot : IntegritySnapshot)

def entityCounts : List Nat := snapshot.partitions.map PartitionDigest.entityCount

/-- As many leaves as the manifest says, in order and of its generation. -/
abbrev LaidOut : Prop :=
  snapshot.manifest.partitionCount ≠ 0 ∧ snapshot.partitions.length = snapshot.manifest.partitionCount.toNat ∧
    ∀ entry ∈ snapshot.partitions.zipIdx,
      entry.1.partition.toNat = entry.2 ∧ entry.1.generation = snapshot.manifest.generation

/-- The check as a build runs it, one part after the other; no result is a panic. -/
def verifyStructureIn (policy : OverflowPolicy) : Option (Except IntegrityError Unit) :=
  if ¬snapshot.LaidOut then some (.error .malformedSnapshot)
  else do
    let total ← policy.sum snapshot.entityCounts
    if total ≠ snapshot.manifest.entityCount then return .error .malformedSnapshot
    else
      let root ← merkleRoot blake3 snapshot.leafHashes
      if root ≠ snapshot.manifest.rootHash then return .error .malformedSnapshot
      else return .ok ()

/-- The evidence is what it says: counts in exact arithmetic, every leaf in its place, and the root. -/
structure Exact : Prop where
  counts : exactSum snapshot.entityCounts = snapshot.manifest.entityCount
  leaves : ∀ index (leaf : PartitionDigest), snapshot.partitions[index]? = some leaf →
    leaf.partition.toNat = index ∧ leaf.generation = snapshot.manifest.generation
  root : merkleRoot blake3 snapshot.leafHashes = some snapshot.manifest.rootHash

/-- The check returns, and accepts only what is exact. -/
def ChecksExactly (policy : OverflowPolicy) : Prop :=
  ∃ result, snapshot.verifyStructureIn blake3 policy = some result ∧ (result = .ok () → snapshot.Exact blake3)

variable {blake3 snapshot}

theorem LaidOut.leaf (laidOut : snapshot.LaidOut) {leaf : PartitionDigest}
    (found : snapshot.partitions[index]? = some leaf) :
    leaf.partition.toNat = index ∧ leaf.generation = snapshot.manifest.generation :=
  laidOut.2.2 (leaf, index) (List.mk_mem_zipIdx_iff_getElem?.mpr found)

theorem LaidOut.root (laidOut : snapshot.LaidOut) : ∃ root, merkleRoot blake3 snapshot.leafHashes = some root := by
  obtain ⟨some, length, -⟩ := laidOut
  have nonempty : 0 < snapshot.leafHashes.length := by
    rw [leafHashes, List.length_map, length]
    exact Nat.pos_of_ne_zero fun zero => some (UInt32.toNat_inj.mp zero)
  exact ⟨_, MerkleTree.root_eq_foldl_path (List.getElem?_eq_getElem nonempty)⟩

theorem verifyStructureIn_malformed (malformed : ¬snapshot.LaidOut) :
    snapshot.verifyStructureIn blake3 policy = some (.error .malformedSnapshot) := if_pos malformed

theorem verifyStructureIn_laidOut (laidOut : snapshot.LaidOut) :
    snapshot.verifyStructureIn blake3 policy = (policy.sum snapshot.entityCounts).map fun total =>
      require (total = snapshot.manifest.entityCount ∧
        merkleRoot blake3 snapshot.leafHashes = some snapshot.manifest.rootHash) .malformedSnapshot := by
  obtain ⟨root, found⟩ := @LaidOut.root blake3 _ laidOut
  rw [verifyStructureIn, if_neg (not_not.mpr laidOut), found]
  cases policy.sum snapshot.entityCounts with
  | none => rfl
  | some total =>
    by_cases counted : total = snapshot.manifest.entityCount
    · by_cases same : root = snapshot.manifest.rootHash <;> simp [require, counted, same]
    · simp [require, counted]

theorem verifyStructureIn_eq_ok : snapshot.verifyStructureIn blake3 policy = some (.ok ()) ↔
      snapshot.LaidOut ∧ policy.sum snapshot.entityCounts = some snapshot.manifest.entityCount ∧
        merkleRoot blake3 snapshot.leafHashes = some snapshot.manifest.rootHash := by
  by_cases laidOut : snapshot.LaidOut
  · rw [verifyStructureIn_laidOut laidOut, Option.map_eq_some_iff]
    simp only [require_eq_ok]
    constructor
    · rintro ⟨_, summed, rfl, root⟩
      exact ⟨laidOut, summed, root⟩
    · rintro ⟨-, summed, root⟩
      exact ⟨_, summed, rfl, root⟩
  · rw [verifyStructureIn_malformed laidOut]
    exact iff_of_false (fun accepted => by cases accepted) fun accepted => laidOut accepted.1

theorem verifyStructureIn_eq_none : snapshot.verifyStructureIn blake3 policy = none ↔
      snapshot.LaidOut ∧ policy.sum snapshot.entityCounts = none := by
  by_cases laidOut : snapshot.LaidOut
  · rw [verifyStructureIn_laidOut laidOut, Option.map_eq_none_iff]
    exact ⟨fun panicked => ⟨laidOut, panicked⟩, And.right⟩
  · rw [verifyStructureIn_malformed laidOut]
    exact iff_of_false (fun panicked => by cases panicked) fun panicked => laidOut panicked.1

theorem verifyStructureIn_wrapping :
    snapshot.verifyStructureIn blake3 .wrapping = some (.ok ()) ↔ snapshot.verifyStructure blake3 = .ok () := by
  rw [verifyStructureIn_eq_ok, sum_wrapping, Option.some.injEq, verifyStructure, require_eq_ok]
  simp only [LaidOut, and_assoc]
  rfl

theorem exact_iff (accepted : snapshot.verifyStructureIn blake3 policy = some (.ok ())) :
    snapshot.Exact blake3 ↔ exactSum snapshot.entityCounts = snapshot.manifest.entityCount := by
  obtain ⟨laidOut, -, root⟩ := verifyStructureIn_eq_ok.mp accepted
  exact ⟨Exact.counts, fun counts => ⟨counts, fun _ _ => laidOut.leaf, root⟩⟩

end IntegritySnapshot

open IntegritySnapshot

/-- A checked build returns and accepts only exact evidence when the counts of leaves that are laid out add up to
64 bits; a wrapping build always returns, and accepts only exact evidence when the counts of what it accepts do. -/
theorem transported_evidence_iff (blake3 : Hash) (snapshot : IntegritySnapshot) :
    (snapshot.ChecksExactly blake3 .checked ↔
      (snapshot.LaidOut → exactSum snapshot.entityCounts ≤ u64Max)) ∧
    (snapshot.ChecksExactly blake3 .wrapping ↔
      (snapshot.verifyStructure blake3 = .ok () → exactSum snapshot.entityCounts ≤ u64Max)) := by
  constructor
  · have panics := @verifyStructureIn_eq_none blake3 snapshot .checked
    rw [sum_checked, checkedAdd_eq_none, Nat.zero_add] at panics
    constructor
    · intro checks laidOut
      obtain ⟨result, returned, -⟩ := checks
      by_contra large
      rw [panics.mpr ⟨laidOut, Nat.lt_of_not_le large⟩] at returned
      cases returned
    · intro fits
      cases returned : snapshot.verifyStructureIn blake3 .checked with
      | none =>
        obtain ⟨laidOut, large⟩ := panics.mp returned
        exact absurd (fits laidOut) (Nat.not_le.mpr large)
      | some result =>
        refine ⟨result, returned, fun accepted => ?_⟩
        rw [accepted] at returned
        obtain ⟨-, summed, -⟩ := verifyStructureIn_eq_ok.mp returned
        rw [sum_checked, checkedAdd_eq_some, Nat.zero_add] at summed
        exact (exact_iff returned).mpr summed.1.symm
  · have panics := @verifyStructureIn_eq_none blake3 snapshot .wrapping
    rw [sum_wrapping] at panics
    constructor
    · intro checks accepted
      obtain ⟨result, returned, exact⟩ := checks
      have passed := verifyStructureIn_wrapping.mpr accepted
      obtain ⟨-, summed, -⟩ := verifyStructureIn_eq_ok.mp passed
      obtain rfl : result = .ok () := Option.some.inj (returned.symm.trans passed)
      have wrapped : exactSum snapshot.entityCounts % (u64Max + 1) = exactSum snapshot.entityCounts := by
        rw [sum_wrapping] at summed
        exact (Option.some.inj summed).trans (exact rfl).counts.symm
      rw [← wrapped]
      exact Nat.le_of_lt_succ (Nat.mod_lt _ (Nat.succ_pos _))
    · intro fits
      cases returned : snapshot.verifyStructureIn blake3 .wrapping with
      | none => cases (panics.mp returned).2
      | some result =>
        refine ⟨result, returned, fun accepted => ?_⟩
        rw [accepted] at returned
        obtain ⟨-, summed, -⟩ := verifyStructureIn_eq_ok.mp returned
        rw [sum_wrapping, Option.some.injEq,
          Nat.mod_eq_of_lt (Nat.lt_succ_of_le (fits (verifyStructureIn_wrapping.mp returned)))] at summed
        exact (exact_iff returned).mpr summed

/-- One leaf claims all but one of the values of 64 bits and the other claims one entity; the manifest says none. -/
def exampleForged : IntegritySnapshot where
  manifest :=
    { scope := ⟨42⟩, generation := 1, boundary := .legacy ⟨42⟩ 9
      rootHash := nodeHash exampleHash (Vector.replicate 32 0) (Vector.replicate 32 0)
      partitionCount := 2, entityCount := 0 }
  partitions :=
    [⟨0, 1, u64Max, Vector.replicate 32 0⟩, ⟨1, 1, 1, Vector.replicate 32 0⟩]

/-- A checked build panics on it, a wrapping one accepts it. -/
theorem transported_evidence_forged : exampleForged.verifyStructureIn exampleHash .checked = none ∧
      exampleForged.verifyStructureIn exampleHash .wrapping = some (.ok ()) ∧
      exactSum exampleForged.entityCounts ≠ exampleForged.manifest.entityCount := by
  decide +kernel

end Aequora.Integrity
