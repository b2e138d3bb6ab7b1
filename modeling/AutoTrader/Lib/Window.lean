import AutoTrader.Lib.Loop
import Mathlib.Algebra.BigOperators.Group.List.Basic

/-!
# Sliding windows

`window xs p m` is the last `p` of the first `m` elements of a list, or all of them if there are fewer. One step
on, an element comes in and, once the window is full, another goes out (`window_succ`).
-/

namespace Lib

variable {α : Type} {xs : List α} {p m : Nat}

/-- The last `p` of the first `m`. -/
def window (xs : List α) (p m : Nat) : List α := (xs.take m).drop (m - p)

theorem window_zero (xs : List α) (p : Nat) : window xs p 0 = [] := by
  simp [window]

variable [Inhabited α]

theorem take_succ_eq (hm : m < xs.length) : xs.take (m + 1) = xs.take m ++ [xs[m]!] := by
  rw [getElem!_pos xs m hm, List.take_append_getElem hm]

theorem mem_window (hm : m ≤ xs.length) {a : α} : a ∈ window xs p m ↔ ∃ k, m - p ≤ k ∧ k < m ∧ xs[k]! = a := by
  rw [window, List.mem_iff_getElem?]
  constructor
  · rintro ⟨i, hi⟩
    rw [List.getElem?_drop] at hi
    have hlt : m - p + i < m := by
      have h := (List.getElem?_eq_some_iff.mp hi).1
      rw [List.length_take] at h
      omega
    rw [List.getElem?_take_of_lt hlt] at hi
    refine ⟨m - p + i, by omega, hlt, ?_⟩
    rw [List.getElem!_eq_getElem?_getD, hi, Option.getD_some]
  · rintro ⟨k, hk, hlt, rfl⟩
    have hidx : m - p + (k - (m - p)) = k := by omega
    refine ⟨k - (m - p), ?_⟩
    rw [List.getElem?_drop, hidx, List.getElem?_take_of_lt hlt, getElem!_pos xs k (by omega)]
    exact List.getElem?_eq_getElem (by omega)

/-- The window after one more element. -/
theorem window_succ (hp : 0 < p) (hm : m < xs.length) :
    (m < p ∧ window xs p (m + 1) = window xs p m ++ [xs[m]!]) ∨
      (p ≤ m ∧ ∃ mid, window xs p m = xs[m - p]! :: mid ∧ window xs p (m + 1) = mid ++ [xs[m]!]) := by
  rcases Nat.lt_or_ge m p with hlt | hge
  · refine .inl ⟨hlt, ?_⟩
    have hnone : m + 1 - p = 0 := by omega
    have hnone' : m - p = 0 := by omega
    rw [window, window, hnone, hnone', List.drop_zero, List.drop_zero, take_succ_eq hm]
  · refine .inr ⟨hge, (xs.take m).drop (m - p + 1), ?_, ?_⟩
    · have hold : m - p < (xs.take m).length := by
        rw [List.length_take]
        omega
      rw [window, List.drop_eq_getElem_cons hold, List.getElem_take, getElem!_pos]
    · have hnext : m + 1 - p = m - p + 1 := by omega
      have hle : m - p + 1 ≤ (xs.take m).length := by
        rw [List.length_take]
        omega
      rw [window, hnext, take_succ_eq hm, List.drop_append_of_le_length hle]

end Lib
