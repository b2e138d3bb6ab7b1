import Mathlib.Data.Nat.Basic
import Mathlib.Tactic.Ring

/-!
# Whole numbers in a fixed number of significant bits

`roundToBits p n` is the number nearest to `n` that `p` significant bits can hold, the one with the even
significand if there are two; `roundInt` does the same for the size of a number with a sign. Rounding keeps
the order (`roundInt_mono`), it changes no number below `2 ^ p` (`roundInt_of_lt`), and a number that was not
below `2 ^ p` is not rounded below it.
-/

namespace Lib

/-- The quotient to the nearest whole number, to the even one if there are two. -/
def divNearestEven (n d : Nat) : Nat :=
  if 2 * (n % d) < d ∨ 2 * (n % d) = d ∧ n / d % 2 = 0 then n / d else n / d + 1

/-- The bits of `n` that `p` significant bits leave out. -/
def excessBits (p n : Nat) : Nat := n.log2 + 1 - p

/-- `n` rounded to its first `p` bits, ties to even. -/
def roundToBits (p n : Nat) : Nat := divNearestEven n (2 ^ excessBits p n) * 2 ^ excessBits p n

/-- An integer rounded to its first `p` bits. -/
def roundInt (p : Nat) (n : Int) : Int :=
  if n < 0 then -(roundToBits p n.natAbs : Int) else roundToBits p n.natAbs

variable {n m d p : Nat}

theorem divNearestEven_mono (h : n ≤ m) : divNearestEven n d ≤ divNearestEven m d := by
  have hq : n / d ≤ m / d := Nat.div_le_div_right h
  have hn : n / d * d + n % d = n := Nat.div_add_mod' n d
  have hm : m / d * d + m % d = m := Nat.div_add_mod' m d
  unfold divNearestEven
  rcases Nat.lt_or_ge (n / d) (m / d) with hlt | hge
  · split <;> split <;> omega
  · have he : m / d = n / d := by omega
    rw [he] at hm ⊢
    split <;> split <;> omega

theorem divNearestEven_mul (hd : 0 < d) (k : Nat) : divNearestEven (k * d) d = k := by
  unfold divNearestEven
  rw [Nat.mul_mod_left, Nat.mul_div_cancel k hd, if_pos (by omega)]

/-- A bound that a number of excess bits divides is kept. -/
theorem roundToBits_le_mul {k : Nat} (h : n ≤ k * 2 ^ excessBits p n) :
    roundToBits p n ≤ k * 2 ^ excessBits p n := by
  refine Nat.mul_le_mul_right _ ?_
  have := divNearestEven_mono (d := 2 ^ excessBits p n) h
  rwa [divNearestEven_mul (Nat.two_pow_pos _)] at this

theorem mul_le_roundToBits {k : Nat} (h : k * 2 ^ excessBits p n ≤ n) :
    k * 2 ^ excessBits p n ≤ roundToBits p n := by
  refine Nat.mul_le_mul_right _ ?_
  have := divNearestEven_mono (d := 2 ^ excessBits p n) h
  rwa [divNearestEven_mul (Nat.two_pow_pos _)] at this

theorem roundToBits_of_lt (hp : 0 < p) (h : n < 2 ^ p) : roundToBits p n = n := by
  have he : excessBits p n = 0 := by
    unfold excessBits
    rcases Nat.eq_zero_or_pos n with rfl | hn
    · rw [Nat.log2_zero]
      omega
    · have := (Nat.log2_lt hn.ne').mpr h
      omega
  unfold roundToBits divNearestEven
  rw [he, Nat.pow_zero, Nat.mod_one, Nat.div_one, if_pos (by omega), Nat.mul_one]

theorem roundToBits_mono (hp : 0 < p) (h : n ≤ m) : roundToBits p n ≤ roundToBits p m := by
  rcases Nat.eq_zero_or_pos n with rfl | hn
  · rw [roundToBits_of_lt hp (Nat.two_pow_pos p)]
    exact Nat.zero_le _
  have hlog : n.log2 ≤ m.log2 := (Nat.le_log2 (by omega)).mpr ((Nat.log2_self_le hn.ne').trans h)
  rcases Nat.lt_or_ge (excessBits p n) (excessBits p m) with hlt | hge
  · -- the two numbers are in different binades, and the power of two between them is kept by both
    have hlt' : n.log2 + 1 ≤ m.log2 := by
      unfold excessBits at hlt
      omega
    have hbits : p - 1 + excessBits p m = m.log2 := by
      unfold excessBits at hlt ⊢
      omega
    have htop : n ≤ 2 ^ (n.log2 + 1) := Nat.lt_log2_self.le
    have hn' : roundToBits p n ≤ 2 ^ (n.log2 + 1) := by
      have hle : excessBits p n ≤ n.log2 + 1 := by
        unfold excessBits
        omega
      have hpow : 2 ^ (n.log2 + 1 - excessBits p n) * 2 ^ excessBits p n = 2 ^ (n.log2 + 1) := by
        rw [← Nat.pow_add, Nat.sub_add_cancel hle]
      rw [← hpow] at htop ⊢
      exact roundToBits_le_mul htop
    have hm' : 2 ^ m.log2 ≤ roundToBits p m := by
      have hlow : 2 ^ m.log2 ≤ m := Nat.log2_self_le (by omega)
      rw [← hbits, Nat.pow_add] at hlow ⊢
      exact mul_le_roundToBits hlow
    exact hn'.trans ((Nat.pow_le_pow_right (by decide) hlt').trans hm')
  · have he : excessBits p n = excessBits p m := by
      unfold excessBits at hge ⊢
      omega
    unfold roundToBits
    rw [he]
    exact Nat.mul_le_mul_right _ (divNearestEven_mono h)

theorem roundInt_of_lt (hp : 0 < p) {n : Int} (h : n.natAbs < 2 ^ p) : roundInt p n = n := by
  unfold roundInt
  rw [roundToBits_of_lt hp h]
  split <;> omega

theorem roundInt_mono (hp : 0 < p) {n m : Int} (h : n ≤ m) : roundInt p n ≤ roundInt p m := by
  unfold roundInt
  split <;> split
  · have := roundToBits_mono hp (show m.natAbs ≤ n.natAbs by omega)
    omega
  · omega
  · omega
  · have := roundToBits_mono hp (show n.natAbs ≤ m.natAbs by omega)
    omega

theorem roundInt_pos (hp : 0 < p) {n : Int} (h : 0 < n) : 0 < roundInt p n := by
  have hone : roundInt p 1 = 1 := roundInt_of_lt hp (Nat.one_lt_two_pow hp.ne')
  have := roundInt_mono hp (show (1 : Int) ≤ n by omega)
  omega

end Lib
