import Mathlib.Algebra.Ring.Int.Defs
import Mathlib.Algebra.Ring.Nat
import Mathlib.Data.Int.Order.Basic
import Mathlib.Order.Basic

/-!
# Signed words without overflow

The operations of `Int64` wrap around. Where the exact result fits into a word they are those of the integers
(`toInt_add_of_fits` and its siblings). A word read as a signed one keeps its value below `2 ^ 63`, and is negative from
there on (`toInt_toInt64`, `toInt_toInt64_neg`).
-/

namespace Lib

/-- The integer is the value of a signed word. -/
def Fits (x : Int) : Prop := -2 ^ 63 ≤ x ∧ x < 2 ^ 63

instance (x : Int) : Decidable (Fits x) := inferInstanceAs (Decidable (-2 ^ 63 ≤ x ∧ x < 2 ^ 63))

theorem fits_toInt (a : Int64) : Fits a.toInt := ⟨a.le_toInt, a.toInt_lt⟩

theorem bmod_of_fits {x : Int} (h : Fits x) : x.bmod (2 ^ 64) = x :=
  Int.bmod_eq_of_le h.1 h.2

/-- Only what fits into a word survives the wrapping around. -/
theorem bmod_eq_iff_fits {x : Int} : x.bmod (2 ^ 64) = x ↔ Fits x := by
  refine ⟨fun h => ?_, bmod_of_fits⟩
  have hle : -((2 ^ 64 : Nat) : Int) / 2 ≤ x.bmod (2 ^ 64) := Int.le_bmod (by decide)
  have hlt : x.bmod (2 ^ 64) < (((2 ^ 64 : Nat) : Int) + 1) / 2 := Int.bmod_lt (by decide)
  rw [h] at hle hlt
  exact ⟨by omega, by omega⟩

theorem toInt_add_of_fits {a b : Int64} (h : Fits (a.toInt + b.toInt)) : (a + b).toInt = a.toInt + b.toInt := by
  rw [Int64.toInt_add, bmod_of_fits h]

theorem toInt_sub_of_fits {a b : Int64} (h : Fits (a.toInt - b.toInt)) : (a - b).toInt = a.toInt - b.toInt := by
  rw [Int64.toInt_sub, bmod_of_fits h]

theorem toInt_mul_of_fits {a b : Int64} (h : Fits (a.toInt * b.toInt)) : (a * b).toInt = a.toInt * b.toInt := by
  rw [Int64.toInt_mul, bmod_of_fits h]

theorem toInt_min (a b : Int64) : (min a b).toInt = min a.toInt b.toInt := by
  by_cases h : a ≤ b
  · rw [min_eq_left (Int64.le_iff_toInt_le.mp h), show min a b = a from if_pos h]
  · have hlt : b.toInt < a.toInt := by
      rw [Int64.le_iff_toInt_le] at h
      omega
    rw [min_eq_right (le_of_lt hlt), show min a b = b from if_neg h]

theorem toInt_max (a b : Int64) : (max a b).toInt = max a.toInt b.toInt := by
  by_cases h : a ≤ b
  · rw [max_eq_right (Int64.le_iff_toInt_le.mp h), show max a b = b from if_pos h]
  · have hlt : b.toInt < a.toInt := by
      rw [Int64.le_iff_toInt_le] at h
      omega
    rw [max_eq_left (le_of_lt hlt), show max a b = a from if_neg h]

theorem toInt_toInt64 {x : UInt64} (h : x.toNat < 2 ^ 63) : x.toInt64.toInt = x.toNat := by
  rw [← Int64.toInt_toBitVec, UInt64.toBitVec_toInt64, BitVec.toInt_eq_toNat_of_lt, UInt64.toNat_toBitVec]
  rw [UInt64.toNat_toBitVec]
  omega

theorem toInt_toInt64_neg {x : UInt64} (h : 2 ^ 63 ≤ x.toNat) : x.toInt64.toInt < 0 := by
  have hlt : x.toNat < 2 ^ 64 := x.toNat_lt
  rw [← Int64.toInt_toBitVec, UInt64.toBitVec_toInt64, BitVec.toInt_eq_toNat_cond, UInt64.toNat_toBitVec]
  split <;> omega

end Lib
