import AutoTrader.Lib.Radix
import AutoTrader.Sim.Params
import Mathlib.Algebra.BigOperators.Group.List.Lemmas
import Mathlib.Algebra.Order.BigOperators.GroupWithZero.List
import Mathlib.Algebra.Order.Ring.Nat

/-!
# The grid of a sweep

The values of a parameter are counted by `candidateCount`, and `paramValueAt` gives them by their place. A
combination is a number in mixed radix, with a digit for every spec: `combinationAt` takes it apart and
`defaultIndex` puts the digits of the defaults together.

The specs that were accepted have at least one value each (`candidateCount_pos`); if the combinations of all
can be counted, the place of a default is below the count (`ParamSpec.Valid.defaultK_lt`), and the value at
any place below the count is one that `resolveOneParam` accepts (`ParamSpec.Valid.resolve_valueAt`).
-/

namespace AutoTrader.Sim

open List (Forall₂)

/-! ## The values of one parameter -/

/-- How often the count of a float grid is corrected. -/
def maxFloatKAdjustments : Nat := 4

/-- The first loop: down while the value does not fit. -/
def shrinkK (fits : Nat → Bool) : Nat → Nat → Nat
  | 0, k => k
  | n + 1, k => if 0 < k ∧ !fits k then shrinkK fits n (k - 1) else k

/-- The second loop: up while the next value fits. -/
def growK (fits : Nat → Bool) : Nat → Nat → Nat
  | 0, k => k
  | n + 1, k => if k + 1 ≤ maxU64 ∧ fits (k + 1) then growK fits n (k + 1) else k

/-- The value at a place is within the range, up to the tolerance. -/
def fitsFloat (spec : ParamSpec) (k : Nat) : Bool :=
  decide (spec.min + k * spec.step ≤ spec.max + floatGridTolerance)

/-- The values of a parameter on its grid. -/
def candidateCount (spec : ParamSpec) : Nat :=
  match spec.kind with
  | .int =>
    let min := toI64 spec.min
    let max := toI64 spec.max
    let step := toI64 spec.step
    let span := max.toInt - min.toInt
    saturatingAdd (i128ToU64 (span.tdiv step.toInt)) 1
  | .float =>
    let k := toU64 (⌊(spec.max - spec.min) / spec.step⌋ : Int)
    let k := shrinkK (fitsFloat spec) maxFloatKAdjustments k
    let k := growK (fitsFloat spec) maxFloatKAdjustments k
    saturatingAdd k 1

/-- The place of the default on the grid. -/
def defaultK (spec : ParamSpec) : Nat :=
  match spec.kind with
  | .int =>
    let min := toI64 spec.min
    let step := toI64 spec.step
    let default := toI64 spec.default
    i128ToU64 ((default.toInt - min.toInt).tdiv step.toInt)
  | .float => toU64 (roundF64 ((spec.default - spec.min) / spec.step))

/-- The value at a place of the grid. -/
def paramValueAt (spec : ParamSpec) (k : Nat) : ParamValue :=
  match spec.kind with
  | .int =>
    let min := toI64 spec.min
    let step := toI64 spec.step
    .int (.ofInt (min.toInt + k * step.toInt))
  | .float => .float (spec.min + k * spec.step)

/-! ## Combinations -/

/-- The combinations that a sweep may have. -/
def maxTotalCombinations : Nat := 2 ^ 63

/-- The error of a sweep with too many combinations. -/
def tooManyCombinationsError : SimError :=
  .args [.lit (s!"invalid sweep: more than {maxTotalCombinations} parameter combinations; narrow the " ++
    "parameter ranges or use a coarser step to reduce the candidate count")]

/-- The total goes on with the number of values of a spec; the product is checked in `u128`. -/
def countSpec (total : Nat) (spec : ParamSpec) : Except SimError Nat :=
  let total := total * candidateCount spec
  if total < 2 ^ 128 ∧ total ≤ maxTotalCombinations then .ok total else .error tooManyCombinationsError

/-- The number of combinations. -/
def totalCombinations (specs : List ParamSpec) : Except SimError Nat := specs.foldlM countSpec 1

/-- The index of the combination of the defaults. -/
def defaultIndex (specs : List ParamSpec) : Except SimError Nat := do
  let _ ← totalCombinations specs
  return specs.foldl (fun result spec => result * candidateCount spec + defaultK spec) 0

/-- The combination of an index. -/
def combinationAt (specs : List ParamSpec) (index : Nat) : ParamSet :=
  let (ks, _) := Lib.Radix.digits (specs.map candidateCount) index
  (specs.zip ks).map fun p => (p.1.name, paramValueAt p.1 p.2)

/-! ## Counting -/

theorem candidateCount_pos (spec : ParamSpec) : 0 < candidateCount spec := by
  simp only [candidateCount, saturatingAdd, maxU64]
  split <;> omega

theorem foldlM_countSpec {specs : List ParamSpec} {start total : Nat} (hs : start ≤ maxTotalCombinations)
    (h : specs.foldlM countSpec start = .ok total) :
    total = start * (specs.map candidateCount).prod ∧ total ≤ maxTotalCombinations := by
  induction specs generalizing start with
  | nil =>
    obtain rfl : start = total := Except.ok.inj h
    simp [hs]
  | cons spec specs ih =>
    rw [List.foldlM_cons, Lib.bind_eq_ok] at h
    obtain ⟨next, hnext, h⟩ := h
    simp only [countSpec] at hnext
    split at hnext
    · rename_i hle
      obtain rfl := Except.ok.inj hnext
      obtain ⟨htotal, hmax⟩ := ih hle.2 h
      exact ⟨by rw [htotal, List.map_cons, List.prod_cons, Nat.mul_assoc], hmax⟩
    · cases hnext

/-- The total is the product of the counts. -/
theorem totalCombinations_ok {specs : List ParamSpec} {total : Nat} (h : totalCombinations specs = .ok total) :
    total = (specs.map candidateCount).prod ∧ ∀ spec ∈ specs, candidateCount spec ≤ 2 ^ 63 := by
  obtain ⟨htotal, hmax⟩ := foldlM_countSpec (by decide) h
  rw [Nat.one_mul] at htotal
  refine ⟨htotal, fun spec hspec => le_trans (Nat.le_of_dvd ?_ ?_) hmax⟩
  · rw [htotal]
    exact List.prod_pos fun n hn => by
      obtain ⟨p, -, rfl⟩ := List.mem_map.mp hn
      exact candidateCount_pos p
  · rw [htotal]
    exact List.dvd_prod (List.mem_map_of_mem hspec)

/-! ## Integer parameters -/

theorem i128ToU64_of {n : Int} (h0 : 0 ≤ n) (h : n < 2 ^ 64) : (i128ToU64 n : Int) = n := by
  unfold i128ToU64
  omega

theorem tdiv_span {a b : Int64} {n : Int} (h : b.toInt ≤ a.toInt) (hn : 0 < n) :
    (i128ToU64 ((a.toInt - b.toInt).tdiv n) : Int) = (a.toInt - b.toInt) / n := by
  have ha := a.toInt_lt
  have hb := b.le_toInt
  have hle : (a.toInt - b.toInt) / n ≤ a.toInt - b.toInt := Int.ediv_le_self n (by omega)
  rw [Int.tdiv_eq_ediv_of_nonneg (by omega)]
  exact i128ToU64_of (Int.ediv_nonneg (by omega) hn.le) (by omega)

namespace ParamSpec.Valid

variable {spec : ParamSpec}

/-- The fields of an integer spec as the grid reads them. -/
theorem int (h : spec.Valid) (hk : spec.kind = .int) :
    (toI64 spec.min).toInt ≤ (toI64 spec.default).toInt ∧ (toI64 spec.default).toInt ≤ (toI64 spec.max).toInt ∧
      0 < (toI64 spec.step).toInt := by
  simp only [Valid, hk] at h
  obtain ⟨min, max, step, default, hmin, hmax, hstep, -, h1, h2, h3, h4⟩ := h
  rw [h1, h2, h3, h4]
  exact ⟨roundTrip_mono hmin, roundTrip_mono hmax, roundTrip_pos hstep⟩

theorem candidateCount_int (h : spec.Valid) (hk : spec.kind = .int) (hc : candidateCount spec ≤ 2 ^ 63) :
    (candidateCount spec : Int) =
      ((toI64 spec.max).toInt - (toI64 spec.min).toInt) / (toI64 spec.step).toInt + 1 := by
  obtain ⟨hmin, hmax, hstep⟩ := h.int hk
  have hspan := tdiv_span (hmin.trans hmax) hstep
  simp only [candidateCount, hk, saturatingAdd, maxU64] at hc ⊢
  omega

theorem defaultK_int (h : spec.Valid) (hk : spec.kind = .int) :
    (defaultK spec : Int) =
      ((toI64 spec.default).toInt - (toI64 spec.min).toInt) / (toI64 spec.step).toInt := by
  obtain ⟨hmin, -, hstep⟩ := h.int hk
  simp only [defaultK, hk]
  exact tdiv_span hmin hstep

/-- The value at a place below the count, which is at most the maximum. -/
theorem valueAt_int (h : spec.Valid) (hk : spec.kind = .int) (hc : candidateCount spec ≤ 2 ^ 63) {k : Nat}
    (hlt : k < candidateCount spec) :
    ∃ n : Int64, paramValueAt spec k = .int n ∧
      n.toInt = (toI64 spec.min).toInt + k * (toI64 spec.step).toInt ∧ n.toInt ≤ (toI64 spec.max).toInt := by
  obtain ⟨hmin, hmax, hstep⟩ := h.int hk
  have hcount := h.candidateCount_int hk hc
  have hk' : (k : Int) * (toI64 spec.step).toInt ≤ (toI64 spec.max).toInt - (toI64 spec.min).toInt :=
    (Int.le_ediv_iff_mul_le hstep).mp (by omega)
  have hnonneg : 0 ≤ (k : Int) * (toI64 spec.step).toInt := Int.mul_nonneg (by omega) hstep.le
  have hlow := (toI64 spec.min).le_toInt
  have hhigh := (toI64 spec.max).toInt_lt
  refine ⟨.ofInt ((toI64 spec.min).toInt + k * (toI64 spec.step).toInt), by simp only [paramValueAt, hk], ?_⟩
  rw [Int64.toInt_ofInt_of_le (by omega) (by omega)]
  omega

end ParamSpec.Valid

/-! ## Float parameters -/

theorem shrinkK_of_fits {fits : Nat → Bool} {k : Nat} (h : fits k = true) (n : Nat) : shrinkK fits n k = k := by
  rcases n with _ | n
  · rfl
  · simp [shrinkK, h]

theorem growK_le (fits : Nat → Bool) (n k : Nat) : k ≤ growK fits n k := by
  induction n generalizing k with
  | zero => exact le_refl k
  | succ n ih =>
    unfold growK
    split
    · have := ih (k + 1)
      omega
    · exact le_refl k

theorem growK_fits {fits : Nat → Bool} {k : Nat} (h : fits k = true) (n : Nat) : fits (growK fits n k) = true := by
  induction n generalizing k with
  | zero => exact h
  | succ n ih =>
    unfold growK
    split
    · rename_i hnext
      exact ih hnext.2
    · exact h

/-- The first step up is made if it can be. -/
theorem le_growK_succ {fits : Nat → Bool} {k : Nat} (hk : k + 1 ≤ maxU64) (h : fits (k + 1) = true) (n : Nat) :
    k + 1 ≤ growK fits (n + 1) k := by
  unfold growK
  rw [if_pos ⟨hk, h⟩]
  exact growK_le fits n (k + 1)

theorem fitsFloat_iff {spec : ParamSpec} {k : Nat} :
    fitsFloat spec k = true ↔ spec.min + k * spec.step ≤ spec.max + floatGridTolerance := by
  simp [fitsFloat]

theorem floatGridTolerance_pos : 0 < floatGridTolerance := by decide +kernel

namespace ParamSpec.Valid

variable {spec : ParamSpec}

theorem float (h : spec.Valid) (hk : spec.kind = .float) :
    spec.min ≤ spec.default ∧ spec.default ≤ spec.max ∧ 0 < spec.step ∧
      isOnFloatGrid spec.default spec.min spec.step := by
  simpa only [Valid, hk] using h

/-- The last place fits; it is the last whole step, or a later one if the next one fits. -/
theorem candidateCount_float (h : spec.Valid) (hk : spec.kind = .float) (hc : candidateCount spec ≤ 2 ^ 63) :
    ∃ k, candidateCount spec = k + 1 ∧ fitsFloat spec k ∧ ⌊(spec.max - spec.min) / spec.step⌋ ≤ k ∧
      (fitsFloat spec (⌊(spec.max - spec.min) / spec.step⌋.toNat + 1) →
        ⌊(spec.max - spec.min) / spec.step⌋ + 1 ≤ k) := by
  obtain ⟨hmin, hmax, hstep, -⟩ := h.float hk
  have hspan : 0 ≤ (spec.max - spec.min) / spec.step := div_nonneg (by linarith) hstep.le
  have hfloor : 0 ≤ ⌊(spec.max - spec.min) / spec.step⌋ := Int.floor_nonneg.mpr hspan
  simp only [candidateCount, hk, saturatingAdd] at hc ⊢
  set q := ⌊(spec.max - spec.min) / spec.step⌋ with hq
  have hfirst := toU64_intCast q
  have hfits : fitsFloat spec (toU64 (q : Int)) = true := by
    rw [fitsFloat_iff]
    have hle : ((toU64 (q : Int) : Nat) : Rat) ≤ (spec.max - spec.min) / spec.step := by
      refine le_trans ?_ (Int.floor_le _)
      have : ((toU64 (q : Int) : Nat) : Int) ≤ q := by omega
      exact_mod_cast this
    rw [le_div_iff₀ hstep] at hle
    linarith [floatGridTolerance_pos]
  rw [shrinkK_of_fits hfits] at hc ⊢
  have hgrow := growK_le (fitsFloat spec) maxFloatKAdjustments (toU64 (q : Int))
  have hlast := growK_fits hfits maxFloatKAdjustments
  have hnext := @le_growK_succ (fitsFloat spec) (toU64 (q : Int))
  generalize hk' : growK (fitsFloat spec) maxFloatKAdjustments (toU64 (q : Int)) = last at *
  unfold maxU64 at *
  have hsmall : toU64 (q : Int) = q.toNat := by omega
  refine ⟨last, by omega, hlast, by omega, fun hfit => ?_⟩
  rw [hsmall] at hnext hk'
  have hup : q.toNat + 1 ≤ growK (fitsFloat spec) maxFloatKAdjustments q.toNat := hnext (by omega) hfit 3
  omega

/-- The place of the default is the last whole step before the maximum at most, or the next if that one fits. -/
theorem defaultK_float (h : spec.Valid) (hk : spec.kind = .float) (hc : candidateCount spec ≤ 2 ^ 63) :
    defaultK spec < candidateCount spec ∧
      |spec.default - (spec.min + defaultK spec * spec.step)| ≤ floatGridTolerance := by
  obtain ⟨hmin, hmax, hstep, hgrid⟩ := h.float hk
  obtain ⟨last, hcount, -, hlast, hnext⟩ := h.candidateCount_float hk hc
  have hx : 0 ≤ (spec.default - spec.min) / spec.step := div_nonneg (by linarith) hstep.le
  have hxq : (spec.default - spec.min) / spec.step ≤ (spec.max - spec.min) / spec.step :=
    div_le_div_of_nonneg_right (by linarith) hstep.le
  simp only [isOnFloatGrid, decide_eq_true_eq] at hgrid
  obtain ⟨hpos, hclose⟩ := hgrid
  set n := roundF64 ((spec.default - spec.min) / spec.step) with hn
  have hround : n ≤ ⌊(spec.max - spec.min) / spec.step⌋ + 1 := by
    rw [hn, roundF64, if_pos hx, ← Int.floor_add_one]
    exact Int.floor_le_floor (by linarith)
  have hle : n ≤ last := by
    rcases lt_or_eq_of_le hround with hlt | heq
    · omega
    · -- the default lies within the tolerance of this value, so the value fits
      have hfloor : 0 ≤ ⌊(spec.max - spec.min) / spec.step⌋ := Int.floor_nonneg.mpr (hx.trans hxq)
      have hcast : ((⌊(spec.max - spec.min) / spec.step⌋.toNat + 1 : Nat) : Rat) = (n : Rat) := by
        have : ((⌊(spec.max - spec.min) / spec.step⌋.toNat + 1 : Nat) : Int) = n := by omega
        exact_mod_cast this
      have hfit := hnext (fitsFloat_iff.mpr (by rw [hcast]; linarith [(abs_le.mp hclose).1]))
      omega
  have hplace : ((defaultK spec : Nat) : Int) = n := by
    simp only [defaultK, hk]
    rw [toU64_intCast]
    unfold maxU64
    omega
  have hcast : ((defaultK spec : Nat) : Rat) = (n : Rat) := by exact_mod_cast hplace
  rw [hcast]
  exact ⟨by omega, hclose⟩

/-- The place of the default is below the count. -/
theorem defaultK_lt (h : spec.Valid) (hc : candidateCount spec ≤ 2 ^ 63) : defaultK spec < candidateCount spec := by
  rcases hk : spec.kind with _ | _
  · obtain ⟨-, hmax, hstep⟩ := h.int hk
    have hcount := h.candidateCount_int hk hc
    have hdefault := h.defaultK_int hk
    have := Int.ediv_le_ediv hstep (show (toI64 spec.default).toInt - (toI64 spec.min).toInt ≤
      (toI64 spec.max).toInt - (toI64 spec.min).toInt by omega)
    omega
  · exact (h.defaultK_float hk hc).1

/-- The value at a place below the count is at most the maximum and the tolerance. -/
theorem valueAt_float (h : spec.Valid) (hk : spec.kind = .float) (hc : candidateCount spec ≤ 2 ^ 63) {k : Nat}
    (hlt : k < candidateCount spec) : spec.min + k * spec.step ≤ spec.max + floatGridTolerance := by
  obtain ⟨-, -, hstep, -⟩ := h.float hk
  obtain ⟨last, hcount, hfits, -⟩ := h.candidateCount_float hk hc
  have hle : (k : Rat) ≤ last := by exact_mod_cast (by omega : k ≤ last)
  have := mul_le_mul_of_nonneg_right hle hstep.le
  linarith [fitsFloat_iff.mp hfits]

end ParamSpec.Valid

/-! ## The index of the defaults -/

/-- The combination with a place for each spec. -/
def combinationOf (specs : List ParamSpec) (k : ParamSpec → Nat) : ParamSet :=
  specs.map fun spec => (spec.name, paramValueAt spec (k spec))

theorem foldl_eq_number (k : ParamSpec → Nat) (specs : List ParamSpec) (start : Nat) :
    specs.foldl (fun result spec => result * candidateCount spec + k spec) start =
      Lib.Radix.numberFrom start (specs.map candidateCount) (specs.map k) := by
  induction specs generalizing start with
  | nil => rfl
  | cons spec specs ih => exact ih (start * candidateCount spec + k spec)

theorem combinationAt_number {specs : List ParamSpec} {k : ParamSpec → Nat}
    (hk : ∀ spec ∈ specs, k spec < candidateCount spec) :
    combinationAt specs (Lib.Radix.number (specs.map candidateCount) (specs.map k)) = combinationOf specs k := by
  have hlt : Forall₂ (· < ·) (specs.map k) (specs.map candidateCount) := by
    rw [List.forall₂_map_left_iff, List.forall₂_map_right_iff, List.forall₂_same]
    exact hk
  unfold combinationAt combinationOf
  rw [Lib.Radix.digits_number hlt]
  show (specs.zip (specs.map k)).map _ = _
  rw [← List.map_prod_left_eq_zip, List.map_map]
  rfl

/-- The index of the defaults is below the total, and its combination has the place of the default everywhere. -/
theorem defaultIndex_spec {specs : List ParamSpec} {total : Nat} (hv : ∀ spec ∈ specs, spec.Valid)
    (ht : totalCombinations specs = .ok total) :
    ∃ i, defaultIndex specs = .ok i ∧ i < total ∧ combinationAt specs i = combinationOf specs defaultK := by
  obtain ⟨htotal, hcount⟩ := totalCombinations_ok ht
  have hk : ∀ spec ∈ specs, defaultK spec < candidateCount spec := fun spec hspec =>
    (hv spec hspec).defaultK_lt (hcount spec hspec)
  refine ⟨_, ?_, ?_, combinationAt_number hk⟩
  · simp only [defaultIndex, ht]
    exact congrArg Except.ok (foldl_eq_number defaultK specs 0)
  · rw [htotal]
    exact Lib.Radix.number_lt (List.forall₂_map_left_iff.mpr (List.forall₂_map_right_iff.mpr
      (List.forall₂_same.mpr hk)))

end AutoTrader.Sim
