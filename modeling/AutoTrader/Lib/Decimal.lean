import AutoTrader.Lib.Signed64
import AutoTrader.Lib.Truncate
import Mathlib.Algebra.Order.Ring.Rat

/-!
# Decimals of 96 bits

The interface of a decimal type with a mantissa of 96 bits and up to 28 places (`DecimalOps`), and what its
operations are documented to do (`DecimalOps.Lawful`): they are exact where the result is such a decimal, and a
product that is too large is refused. `exactDecimal` has the laws; it refuses every product that it would have to
round.
-/

namespace Lib

/-- The rational is a decimal. -/
def Representable (q : Rat) : Prop := ∃ m s : Nat, m < 2 ^ 96 ∧ s ≤ 28 ∧ |q| * 10 ^ s = m

/-- The operations of a decimal type. -/
structure DecimalOps (D : Type) where
  value : D → Rat
  fromStr : String → Option D
  fromInt : Int → D
  new : Int → Nat → D
  mul : D → D → Option D
  fract : D → D
  isZero : D → Bool
  toI64 : D → Option Int64

/-- The documented laws of the operations. -/
structure DecimalOps.Lawful {D : Type} (ops : DecimalOps D) : Prop where
  bounded : ∀ d, Representable (ops.value d)
  value_fromInt : ∀ n : Int, -2 ^ 31 ≤ n → n < 2 ^ 31 → ops.value (ops.fromInt n) = n
  value_new : ∀ v s, Fits v → s ≤ 28 → ops.value (ops.new v s) = v / 10 ^ s
  mul_exact : ∀ a b, Representable (ops.value a * ops.value b) →
    ∃ c, ops.mul a b = some c ∧ ops.value c = ops.value a * ops.value b
  mul_overflow : ∀ a b, 2 ^ 96 ≤ |ops.value a * ops.value b| → ops.mul a b = none
  value_fract : ∀ d, ops.value (ops.fract d) = ops.value d - truncate (ops.value d)
  isZero_iff : ∀ d, ops.isZero d = true ↔ ops.value d = 0
  toI64_iff : ∀ d m, ops.toI64 d = some m ↔ truncate (ops.value d) = (m.toInt : Rat)

/-! ## Representable rationals -/

theorem Representable.abs_lt {q : Rat} (h : Representable q) : |q| < 2 ^ 96 := by
  obtain ⟨m, s, hm, -, heq⟩ := h
  have hone : (1 : Rat) ≤ 10 ^ s := one_le_pow₀ (by norm_num)
  have hle : |q| ≤ |q| * 10 ^ s := le_mul_of_one_le_right (abs_nonneg q) hone
  have hlt : (m : Rat) < 2 ^ 96 := by exact_mod_cast hm
  linarith

theorem representable_scaled {v : Int} {s : Nat} (hv : v.natAbs < 2 ^ 96) (hs : s ≤ 28) :
    Representable (v / 10 ^ s) := by
  refine ⟨v.natAbs, s, hv, hs, ?_⟩
  have hpos : (0 : Rat) < 10 ^ s := by positivity
  rw [abs_div, abs_of_pos hpos, div_mul_cancel₀ _ (ne_of_gt hpos), Nat.cast_natAbs, Int.cast_abs]

theorem representable_intCast {v : Int} (hv : v.natAbs < 2 ^ 96) : Representable v := by
  have h := representable_scaled (s := 0) hv (by decide)
  rwa [pow_zero, div_one] at h

/-- A thousandfold is a decimal as long as it is not too large. -/
theorem Representable.mul_thousand {q : Rat} (h : Representable q) (hlt : |q * 1000| < 2 ^ 96) :
    Representable (q * 1000) := by
  obtain ⟨m, s, hm, hs, heq⟩ := h
  have habs : |q * 1000| = |q| * 1000 := by rw [abs_mul, abs_of_pos (by norm_num : (0 : Rat) < 1000)]
  rcases Nat.lt_or_ge s 3 with hs3 | hs3
  · have hwhole : |q * 1000| = ((m * 10 ^ (3 - s) : Nat) : Rat) := by
      push_cast
      rw [← heq, mul_assoc, ← pow_add, Nat.add_sub_of_le (Nat.le_of_lt hs3), habs]
      norm_num
    refine ⟨m * 10 ^ (3 - s), 0, ?_, by decide, by rw [pow_zero, mul_one, hwhole]⟩
    rw [hwhole] at hlt
    exact_mod_cast hlt
  · refine ⟨m, s - 3, hm, by omega, ?_⟩
    rw [habs, ← heq, mul_assoc]
    congr 1
    calc (1000 : Rat) * 10 ^ (s - 3) = 10 ^ 3 * 10 ^ (s - 3) := by norm_num
      _ = 10 ^ s := by rw [← pow_add, Nat.add_sub_of_le hs3]

theorem abs_sub_truncate (q : Rat) : |q - truncate q| = |q| - truncate |q| := by
  rcases le_or_gt 0 q with h | h
  · rw [abs_of_nonneg h, abs_of_nonneg (sub_nonneg.mpr (truncate_le h))]
  · have hneg : 0 ≤ -q := by linarith
    have hle := truncate_le hneg
    rw [truncate_neg] at hle
    rw [abs_of_neg h, truncate_neg, abs_of_nonpos (by linarith)]
    ring

theorem Representable.fract {q : Rat} (h : Representable q) : Representable (q - truncate q) := by
  obtain ⟨m, s, hm, hs, heq⟩ := h
  have hle := truncate_le (abs_nonneg q)
  have hnn := truncate_nonneg (abs_nonneg q)
  have hfloor := Int.floor_nonneg.mpr (abs_nonneg q)
  obtain ⟨k, hk⟩ := Int.eq_ofNat_of_zero_le hfloor
  have hkeq : truncate |q| = (k : Rat) := by
    rw [truncate_of_nonneg (abs_nonneg q), hk]
    rfl
  have hkm : k * 10 ^ s ≤ m := by
    have hpos : (0 : Rat) ≤ 10 ^ s := by positivity
    have hmul := mul_le_mul_of_nonneg_right hle hpos
    rw [hkeq, heq] at hmul
    exact_mod_cast hmul
  refine ⟨m - k * 10 ^ s, s, by omega, hs, ?_⟩
  rw [abs_sub_truncate, hkeq, sub_mul, heq, Nat.cast_sub hkm]
  push_cast
  ring

/-- Truncation changes what is not whole. -/
theorem truncate_eq_self_iff {q : Rat} : truncate q = q ↔ ∃ n : Int, q = n := by
  constructor
  · intro h
    rw [← h, truncate]
    split
    · exact ⟨_, rfl⟩
    · exact ⟨_, rfl⟩
  · rintro ⟨n, rfl⟩
    exact truncate_intCast n

/-! ## Exact decimals -/

theorem representable_iff (q : Rat) :
    Representable q ↔ ∃ s, s < 29 ∧ (|q| * 10 ^ s).den = 1 ∧ (|q| * 10 ^ s).num < 2 ^ 96 := by
  constructor
  · rintro ⟨m, s, hm, hs, heq⟩
    refine ⟨s, by omega, ?_, ?_⟩
    · rw [heq, Rat.den_natCast]
    · rw [heq, Rat.num_natCast]
      exact_mod_cast hm
  · rintro ⟨s, hs, hden, hnum⟩
    have hnn : 0 ≤ |q| * 10 ^ s := by positivity
    have hnum0 : 0 ≤ (|q| * 10 ^ s).num := Rat.num_nonneg.mpr hnn
    refine ⟨(|q| * 10 ^ s).num.toNat, s, by omega, by omega, ?_⟩
    have hcast : (((|q| * 10 ^ s).num.toNat : Nat) : Rat) = ((|q| * 10 ^ s).num : Rat) := by
      exact_mod_cast congrArg (Int.cast : Int → Rat) (Int.toNat_of_nonneg hnum0)
    rw [hcast]
    exact ((Rat.den_eq_one_iff _).mp hden).symm

instance (q : Rat) : Decidable (Representable q) := decidable_of_iff _ (representable_iff q).symm

/-- Exact decimals. -/
abbrev ExactDecimal := { q : Rat // Representable q }

/-- The decimal of a rational, zero where there is none. -/
def ExactDecimal.ofRat (q : Rat) : ExactDecimal :=
  if h : Representable q then ⟨q, h⟩ else ⟨0, 0, 0, by decide, by decide, by simp⟩

/-- The whole part as a word, if it is one. -/
def wholeWord (q : Rat) : Option Int64 :=
  let n := if 0 ≤ q then ⌊q⌋ else ⌈q⌉
  if -2 ^ 63 ≤ n ∧ n < 2 ^ 63 then some (Int64.ofInt n) else none

/-- Decimals that are never rounded, with some way to read them. -/
def exactDecimal (fromStr : String → Option ExactDecimal) : DecimalOps ExactDecimal where
  value := Subtype.val
  fromStr := fromStr
  fromInt n := .ofRat n
  new v s := .ofRat (v / 10 ^ s)
  mul a b := if h : Representable (a.val * b.val) then some ⟨a.val * b.val, h⟩ else none
  fract d := ⟨d.val - truncate d.val, d.property.fract⟩
  isZero d := decide (d.val = 0)
  toI64 d := wholeWord d.val

theorem ExactDecimal.val_ofRat {q : Rat} (h : Representable q) : (ExactDecimal.ofRat q).val = q := by
  rw [ExactDecimal.ofRat, dif_pos h]

theorem truncate_eq_cast (q : Rat) : truncate q = ((if 0 ≤ q then ⌊q⌋ else ⌈q⌉ : Int) : Rat) := by
  unfold truncate
  split
  · rfl
  · rfl

theorem wholeWord_eq_some {q : Rat} {m : Int64} : wholeWord q = some m ↔ truncate q = (m.toInt : Rat) := by
  rw [truncate_eq_cast, Int.cast_inj, wholeWord]
  generalize (if 0 ≤ q then ⌊q⌋ else ⌈q⌉ : Int) = n
  have hlo := m.le_toInt
  have hhi := m.toInt_lt
  by_cases hfits : -2 ^ 63 ≤ n ∧ n < 2 ^ 63
  · have hn : (Int64.ofInt n).toInt = n := Int64.toInt_ofInt_of_le hfits.1 hfits.2
    rw [if_pos hfits, Option.some.injEq, ← Int64.toInt_inj, hn]
  · rw [if_neg hfits]
    constructor
    · intro h
      exact absurd h.symm (Option.some_ne_none m)
    · rintro rfl
      exact absurd ⟨hlo, hhi⟩ hfits

theorem exactDecimal_lawful (fromStr : String → Option ExactDecimal) : (exactDecimal fromStr).Lawful where
  bounded d := d.property
  value_fromInt n h₁ h₂ := ExactDecimal.val_ofRat (representable_intCast (by omega))
  value_new v s hv hs := by
    have hlt : v.natAbs < 2 ^ 96 := by
      obtain ⟨h₁, h₂⟩ := hv
      omega
    exact ExactDecimal.val_ofRat (representable_scaled hlt hs)
  mul_exact a b h := ⟨⟨a.val * b.val, h⟩, dif_pos h, rfl⟩
  mul_overflow a b h := dif_neg fun hr => absurd hr.abs_lt (not_lt.mpr h)
  value_fract _ := rfl
  isZero_iff _ := decide_eq_true_iff
  toI64_iff _ _ := wholeWord_eq_some

end Lib
