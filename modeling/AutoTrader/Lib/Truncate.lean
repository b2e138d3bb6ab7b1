import Mathlib.Data.Rat.Floor
import Mathlib.Tactic.Linarith
import Mathlib.Tactic.Ring

/-!
# Rounding toward zero

`truncate q` is the whole number nearest to `q` among those no farther from zero. It keeps the sign
(`truncate_nonneg`) and never exceeds a nonnegative `q` (`truncate_le`).
-/

namespace Lib

/-- A rational without its fraction. -/
def truncate (q : Rat) : Rat := if 0 ≤ q then (⌊q⌋ : Int) else (⌈q⌉ : Int)

theorem truncate_of_nonneg {q : Rat} (h : 0 ≤ q) : truncate q = (⌊q⌋ : Int) := if_pos h

theorem truncate_nonneg {q : Rat} (h : 0 ≤ q) : 0 ≤ truncate q := by
  rw [truncate_of_nonneg h]
  exact_mod_cast Int.floor_nonneg.mpr h

theorem truncate_le {q : Rat} (h : 0 ≤ q) : truncate q ≤ q := by
  rw [truncate_of_nonneg h]
  exact Int.floor_le q

theorem truncate_intCast (n : Int) : truncate n = n := by
  simp [truncate]

theorem truncate_neg (q : Rat) : truncate (-q) = -truncate q := by
  rcases lt_trichotomy q 0 with h | rfl | h
  · rw [truncate, truncate, if_pos (by linarith), if_neg (by linarith)]
    simp [Int.floor_neg]
  · simp [truncate]
  · rw [truncate, truncate, if_neg (by linarith), if_pos h.le]
    simp [Int.ceil_neg]

end Lib
