import Aequora.Base.Word
import Mathlib.Data.List.Basic

/-! Numbers of a fixed width and texts as bytes. -/

namespace Aequora.Base

/-- `from_le_bytes`, for any width. -/
def ofLeBytes : List UInt8 → Nat
  | [] => 0
  | byte :: rest => byte.toNat + 256 * ofLeBytes rest

section
variable (bytes : List UInt8)

theorem ofLeBytes_lt : ofLeBytes bytes < byteCapacity bytes.length := by
  induction bytes with
  | nil => exact Nat.one_pos
  | cons byte _ _ =>
    have small := byte.toNat_lt
    rw [ofLeBytes, List.length_cons, byteCapacity]
    omega

theorem ofLeBytes_leBytes (fits : value < byteCapacity width) : ofLeBytes (leBytes width value) = value := by
  induction width generalizing value with
  | zero =>
    rw [byteCapacity] at fits
    exact (Nat.lt_one_iff.mp fits).symm
  | succ _ ih =>
    rw [byteCapacity] at fits
    have low : (UInt8.ofNat value).toNat = value % 256 := UInt8.toNat_ofNat'
    rw [leBytes, ofLeBytes, ih (by omega), low]
    omega

theorem leBytes_ofLeBytes : leBytes bytes.length (ofLeBytes bytes) = bytes := by
  induction bytes with
  | nil => rfl
  | cons byte rest ih =>
    have small := byte.toNat_lt
    have low : UInt8.ofNat (byte.toNat + 256 * ofLeBytes rest) = byte := by
      apply UInt8.toNat_inj.mp
      rw [UInt8.toNat_ofNat']
      omega
    have high : (byte.toNat + 256 * ofLeBytes rest) / 256 = ofLeBytes rest := by omega
    rw [ofLeBytes, List.length_cons, leBytes, low, high, ih]

/-- `from_be_bytes`, for any width. -/
def ofBeBytes : Nat := ofLeBytes bytes.reverse

theorem ofBeBytes_lt : ofBeBytes bytes < byteCapacity bytes.length := by
  have bound := ofLeBytes_lt bytes.reverse
  rwa [List.length_reverse] at bound

theorem ofBeBytes_beBytes (fits : value < byteCapacity width) : ofBeBytes (beBytes width value) = value := by
  rw [ofBeBytes, beBytes, List.reverse_reverse, ofLeBytes_leBytes fits]

theorem beBytes_ofBeBytes : beBytes bytes.length (ofBeBytes bytes) = bytes := by
  have whole := leBytes_ofLeBytes bytes.reverse
  rw [List.length_reverse] at whole
  rw [beBytes, ofBeBytes, whole, List.reverse_reverse]

end

/-- `str::as_bytes`. -/
def textBytes (text : String) : List UInt8 := text.toByteArray.data.toList

theorem textBytes_inj : textBytes first = textBytes second ↔ first = second := by
  refine ⟨fun same => ?_, congrArg textBytes⟩
  exact String.toByteArray_inj.mp (ByteArray.ext (Array.toList_inj.mp same))

end Aequora.Base
