import Mathlib.Data.Nat.Basic

/-! Unsigned 64-bit counters as natural numbers and signed times as integers, with the overflow
policies of the Rust standard library. -/

namespace Aequora.Base

open List

universe u

/-- `u64::MAX`. -/
def u64Max : Nat := 18446744073709551615

/-- `u64::saturating_add`. -/
def saturatingAdd (left right : Nat) : Nat := min (left + right) u64Max

/-- `u64::saturating_mul`. -/
def saturatingMul (left right : Nat) : Nat := min (left * right) u64Max

/-- `u64::checked_add`. -/
def checkedAdd (left right : Nat) : Option Nat :=
  if left + right ≤ u64Max then some (left + right) else none

/-- `i64::saturating_sub`. -/
def i64SaturatingSub (left right : Int) : Int :=
  max (-9223372036854775808) (min (left - right) 9223372036854775807)

theorem saturatingAdd_le (left right : Nat) : saturatingAdd left right ≤ u64Max :=
  Nat.min_le_right _ _

theorem saturatingAdd_eq_of_le (fits : saturatingAdd left right ≤ limit)
    (below : limit < u64Max) : saturatingAdd left right = left + right := by
  simp only [saturatingAdd] at fits ⊢
  omega

theorem saturatingAdd_one_of_lt (below : value < u64Max) : saturatingAdd value 1 = value + 1 := by
  simp only [saturatingAdd]
  omega

theorem lt_of_saturatingAdd_one_lt (below : saturatingAdd value 1 < u64Max) : value < u64Max := by
  simp only [saturatingAdd] at below
  omega

theorem saturatingAdd_one_cases (value : Nat) :
    saturatingAdd value 1 = value + 1 ∨ saturatingAdd value 1 = u64Max ∧ u64Max ≤ value := by
  simp only [saturatingAdd]
  omega

theorem checkedAdd_eq_some : checkedAdd left right = some total ↔ total = left + right ∧ left + right ≤ u64Max := by
  unfold checkedAdd
  split <;> simp_all [eq_comm]

theorem checkedAdd_eq_none : checkedAdd left right = none ↔ u64Max < left + right := by
  unfold checkedAdd
  split <;> simp_all

/-- `u64::wrapping_add`. -/
def wrappingAdd (left right : Nat) : Nat := (left + right) % (u64Max + 1)

/-- The sum of some numbers without any bound. -/
def exactSum (numbers : List Nat) : Nat := numbers.foldr (· + ·) 0

@[simp] theorem exactSum_nil : exactSum [] = 0 := rfl

@[simp] theorem exactSum_cons (number : Nat) (rest : List Nat) : exactSum (number :: rest) = number + exactSum rest :=
  rfl

theorem foldlM_checkedAdd (fits : start ≤ u64Max) (numbers : List Nat) :
    numbers.foldlM checkedAdd start = checkedAdd start (exactSum numbers) := by
  induction numbers generalizing start with
  | nil => exact (if_pos fits).symm
  | cons number _ ih =>
    rw [foldlM_cons, exactSum_cons]
    cases added : checkedAdd start number with
    | none =>
      have large := checkedAdd_eq_none.mp added
      exact (checkedAdd_eq_none.mpr (by omega)).symm
    | some _ =>
      obtain ⟨rfl, small⟩ := checkedAdd_eq_some.mp added
      refine (ih small).trans ?_
      rw [checkedAdd, checkedAdd, Nat.add_assoc]

theorem foldl_wrappingAdd (fits : start ≤ u64Max) (numbers : List Nat) :
    numbers.foldl wrappingAdd start = (start + exactSum numbers) % (u64Max + 1) := by
  induction numbers generalizing start with
  | nil => exact (Nat.mod_eq_of_lt (Nat.lt_succ_of_le fits)).symm
  | cons number _ ih =>
    have small : wrappingAdd start number ≤ u64Max := Nat.le_of_lt_succ (Nat.mod_lt _ (Nat.succ_pos _))
    rw [foldl_cons, ih small, exactSum_cons, wrappingAdd, Nat.mod_add_mod, Nat.add_assoc]

/-- `u64::to_le_bytes`, for any width in bytes. -/
def leBytes : (width : Nat) → Nat → List UInt8
  | 0, _ => []
  | width + 1, value => UInt8.ofNat value :: leBytes width (value / 256)

@[simp] theorem leBytes_length (width value : Nat) : (leBytes width value).length = width := by
  induction width generalizing value with
  | zero => rfl
  | succ _ ih => rw [leBytes, length_cons, ih]

/-- How many values a width in bytes has. -/
def byteCapacity : Nat → Nat
  | 0 => 1
  | width + 1 => 256 * byteCapacity width

theorem leBytes_injective (leftFits : left < byteCapacity width)
    (rightFits : right < byteCapacity width) (same : leBytes width left = leBytes width right) : left = right := by
  induction width generalizing left right with
  | zero =>
    rw [byteCapacity] at leftFits rightFits
    omega
  | succ _ ih =>
    rw [byteCapacity] at leftFits rightFits
    rw [leBytes, leBytes, cons.injEq] at same
    have low : left % 256 = right % 256 := by
      simpa using congrArg UInt8.toNat same.1
    have high : left / 256 = right / 256 := ih (by omega) (by omega) same.2
    omega

/-- `to_be_bytes`, for any width in bytes. -/
def beBytes (width value : Nat) : List UInt8 := (leBytes width value).reverse

@[simp] theorem beBytes_length (width value : Nat) : (beBytes width value).length = width := by
  rw [beBytes, length_reverse, leBytes_length]

theorem beBytes_injective (leftFits : left < byteCapacity width)
    (rightFits : right < byteCapacity width) (same : beBytes width left = beBytes width right) : left = right :=
  leBytes_injective leftFits rightFits (reverse_inj.mp same)

theorem rows_injective {row : Item → List UInt8} (positive : 0 < width)
    (fixed : ∀ item, (row item).length = width) (injective : ∀ left right, row left = row right → left = right)
    {first second : List Item} (same : first.flatMap row = second.flatMap row) : first = second := by
  induction first generalizing second with
  | nil =>
    cases second with
    | nil => rfl
    | cons head rest =>
      have empty := congrArg length same
      simp only [flatMap_nil, flatMap_cons, length_nil, length_append, fixed] at empty
      omega
  | cons head _ ih =>
    cases second with
    | nil =>
      have empty := congrArg length same
      simp only [flatMap_nil, flatMap_cons, length_nil, length_append, fixed] at empty
      omega
    | cons other _ =>
      rw [flatMap_cons, flatMap_cons] at same
      obtain ⟨heads, rests⟩ := append_inj same ((fixed head).trans (fixed other).symm)
      rw [injective head other heads, ih rests]

end Aequora.Base
