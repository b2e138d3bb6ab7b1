import Mathlib.Data.List.DropRight
import Mathlib.Order.Defs.LinearOrder
import Mathlib.Order.MinMax

/-!
# The last elements of a list

A buffer that keeps the last `n` of what it is given (`rtake_concat`), and what is below or above all of a list when
it is below its least or above its greatest element (`lt_min?_iff`, `max?_lt_iff`).
-/

namespace Lib

variable {α : Type} {l : List α} {m n : Nat}

theorem length_rtake (l : List α) (n : Nat) : (l.rtake n).length = min l.length n := by
  rw [List.rtake, List.length_drop]
  omega

/-- The last `n` with one more element are the last `n` of all. -/
theorem rtake_concat (l : List α) (x : α) (n : Nat) : ((l.rtake n ++ [x]).rtake n) = (l ++ [x]).rtake n := by
  cases n with
  | zero => rw [List.rtake_zero, List.rtake_zero]
  | succ n =>
    rw [List.rtake_concat_succ, List.rtake_concat_succ, List.rtake, List.rtake, List.rtake, List.drop_drop,
      List.length_drop]
    congr 2
    omega

theorem rtake_rtake (h : m ≤ n) (l : List α) : (l.rtake n).rtake m = l.rtake m := by
  rw [List.rtake, List.rtake, List.rtake, List.drop_drop, List.length_drop]
  congr 1
  omega

theorem map_rtake {β : Type} (f : α → β) (l : List α) (n : Nat) : (l.rtake n).map f = (l.map f).rtake n := by
  rw [List.rtake, List.rtake, List.map_drop, List.length_map]

theorem dropLast_rtake (h : n < l.length) : (l.rtake (n + 1)).dropLast = l.dropLast.rtake n := by
  obtain ⟨front, x, rfl⟩ : ∃ front x, l = front ++ [x] := by
    refine ⟨l.dropLast, l.getLast (List.ne_nil_of_length_pos (by omega)), ?_⟩
    rw [List.dropLast_append_getLast]
  rw [List.rtake_concat_succ, List.dropLast_concat, List.dropLast_concat]

section

variable {β : Type} [LinearOrder β] {xs : List β} {x y : β}

theorem lt_min?_iff (h : xs.min? = some y) : x < y ↔ ∀ z ∈ xs, x < z :=
  ⟨fun hlt _ hz => lt_of_lt_of_le hlt ((List.le_min?_iff h).mp le_rfl _ hz), fun hall => hall y (List.min?_mem h)⟩

theorem max?_lt_iff (h : xs.max? = some y) : y < x ↔ ∀ z ∈ xs, z < x :=
  ⟨fun hlt _ hz => lt_of_le_of_lt ((List.max?_le_iff h).mp le_rfl _ hz) hlt, fun hall => hall y (List.max?_mem h)⟩

theorem lt_max?_iff (h : xs.max? = some y) : x < y ↔ ∃ z ∈ xs, x < z := by
  rw [← not_le, List.max?_le_iff h]
  simp

theorem min?_lt_iff (h : xs.min? = some y) : y < x ↔ ∃ z ∈ xs, z < x := by
  rw [← not_le, List.le_min?_iff h]
  simp

end

end Lib
