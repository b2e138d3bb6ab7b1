import Mathlib.Algebra.BigOperators.Group.List.Basic
import Mathlib.Algebra.Ring.Nat
import Mathlib.Data.List.Forall2
import Mathlib.Tactic.Ring

/-!
# Mixed radix numbers

A number in the radices `rs` has one digit for each, the last the least significant: `number rs ks` puts
digits together, `digits rs n` takes a number apart and keeps what is left over. Taking apart undoes putting
together (`digits_number`) and the other way round (`number_digits`), and below `rs.prod` nothing is left
over, so that a number there is known by its digits (`digits_inj`).
-/

namespace Lib.Radix

open List (Forall₂)

/-- The number with these digits after the number `acc`. -/
def numberFrom : Nat → List Nat → List Nat → Nat
  | acc, r :: rs, k :: ks => numberFrom (acc * r + k) rs ks
  | acc, _, _ => acc

/-- The number of the digits `ks` in the radices `rs`. -/
def number (rs ks : List Nat) : Nat := numberFrom 0 rs ks

/-- The digits of `n`, and what is left over above them. -/
def digits : List Nat → Nat → List Nat × Nat
  | [], n => ([], n)
  | r :: rs, n =>
    let (ks, remaining) := digits rs n
    (remaining % r :: ks, remaining / r)

variable {rs ks : List Nat} {acc n m : Nat}

theorem digits_numberFrom (h : Forall₂ (· < ·) ks rs) (acc : Nat) : digits rs (numberFrom acc rs ks) = (ks, acc) := by
  induction h generalizing acc with
  | nil => rfl
  | @cons k r ks rs hk _ ih =>
    have hr : 0 < r := by omega
    simp only [numberFrom, digits, ih]
    rw [Nat.mul_add_mod', Nat.mod_eq_of_lt hk, Nat.mul_comm, Nat.mul_add_div hr, Nat.div_eq_of_lt hk, Nat.add_zero]

theorem digits_number (h : Forall₂ (· < ·) ks rs) : digits rs (number rs ks) = (ks, 0) := digits_numberFrom h 0

theorem number_digits (rs : List Nat) (n : Nat) : numberFrom (digits rs n).2 rs (digits rs n).1 = n := by
  induction rs with
  | nil => rfl
  | cons r rs ih =>
    simp only [digits, numberFrom]
    rw [Nat.div_add_mod', ih]

theorem remaining_eq (rs : List Nat) (n : Nat) : (digits rs n).2 = n / rs.prod := by
  induction rs with
  | nil => simp [digits]
  | cons r rs ih =>
    simp only [digits, List.prod_cons]
    rw [ih, Nat.div_div_eq_div_mul, Nat.mul_comm]

theorem digits_lt (h : ∀ r ∈ rs, 0 < r) (n : Nat) : Forall₂ (· < ·) (digits rs n).1 rs := by
  induction rs with
  | nil => exact .nil
  | cons r rs ih =>
    rw [List.forall_mem_cons] at h
    exact .cons (Nat.mod_lt _ h.1) (ih h.2)

/-- A number is known by its digits and what is left over. -/
theorem eq_of_digits (h : digits rs n = digits rs m) : n = m := by
  rw [← number_digits rs n, h, number_digits]

theorem digits_inj (hn : n < rs.prod) (hm : m < rs.prod) (h : (digits rs n).1 = (digits rs m).1) : n = m := by
  refine eq_of_digits (Prod.ext h ?_)
  rw [remaining_eq, remaining_eq, Nat.div_eq_of_lt hn, Nat.div_eq_of_lt hm]

theorem prod_pos (h : Forall₂ (· < ·) ks rs) : 0 < rs.prod := by
  induction h with
  | nil => decide
  | @cons k r ks rs hk _ ih =>
    have hr : 0 < r := by omega
    rw [List.prod_cons]
    exact Nat.mul_pos hr ih

theorem number_lt (h : Forall₂ (· < ·) ks rs) : number rs ks < rs.prod := by
  have hrem := remaining_eq rs (number rs ks)
  rw [digits_number h] at hrem
  exact Nat.lt_of_div_eq_zero (prod_pos h) hrem.symm

end Lib.Radix
