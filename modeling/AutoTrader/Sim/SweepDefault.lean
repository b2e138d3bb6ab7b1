import AutoTrader.Sim.SweepGrid

/-!
# The default combination of a sweep

The combination at `defaultIndex` is the parameter set of a run without arguments unless an integer default
left the grid when it, the minimum and the step were rounded to floats (`default_combination_iff`): then the
combination holds the last value of the grid before the default (`sampleWideRange_default`).
-/

namespace AutoTrader.Sim

open List (Forall₂)

/-- Equal values, where floats may differ by the tolerance of the grid. -/
def ParamValue.Close : ParamValue → ParamValue → Prop
  | int n, int m => n = m
  | float x, float y => |x - y| ≤ floatGridTolerance
  | _, _ => False

/-- The same names with close values. -/
def ParamSet.Close (ps qs : ParamSet) : Prop := Forall₂ (fun p q => p.1 = q.1 ∧ p.2.Close q.2) ps qs

/-- The default of an integer spec is on the grid of its minimum and its step, all three as the floats that
the spec holds. -/
def ParamSpec.DefaultOnGrid (spec : ParamSpec) : Prop :=
  spec.kind = .int → isOnIntegerGrid (toI64 spec.default) (toI64 spec.min) (toI64 spec.step) = true

instance (spec : ParamSpec) : Decidable spec.DefaultOnGrid := inferInstanceAs (Decidable (_ → _))

namespace ParamSpec.Valid

variable {spec : ParamSpec}

theorem resolveDefault_int (h : spec.Valid) (hk : spec.kind = .int) :
    resolveDefault spec = .int (toI64 spec.default) := by
  simp only [Valid, hk] at h
  obtain ⟨-, -, -, default, -, -, -, -, -, -, -, h⟩ := h
  simp only [resolveDefault, hk]
  rw [h, ofI64, roundF64_intCast]

theorem close_iff (h : spec.Valid) (hc : candidateCount spec ≤ 2 ^ 63) :
    (paramValueAt spec (defaultK spec)).Close (resolveDefault spec) ↔ spec.DefaultOnGrid := by
  rcases hk : spec.kind with _ | _
  · obtain ⟨n, hn, hvalue, -⟩ := h.valueAt_int hk hc (h.defaultK_lt hc)
    rw [h.defaultK_int hk] at hvalue
    obtain ⟨-, -, hstep⟩ := h.int hk
    have hdiv := Int.ediv_mul_add_emod ((toI64 spec.default).toInt - (toI64 spec.min).toInt) (toI64 spec.step).toInt
    rw [hn, h.resolveDefault_int hk, DefaultOnGrid, isOnIntegerGrid_iff, Int.dvd_iff_emod_eq_zero]
    simp only [ParamValue.Close, hk, ← Int64.toInt_inj, hvalue, true_imp_iff]
    omega
  · obtain ⟨-, hclose⟩ := h.defaultK_float hk hc
    simp only [paramValueAt, resolveDefault, DefaultOnGrid, hk, ParamValue.Close]
    rw [abs_sub_comm]
    simpa using hclose

end ParamSpec.Valid

variable {map : ParamMap} {specs : List ParamSpec} {total : Nat}

theorem close_combinationOf_iff (hv : ∀ spec ∈ specs, spec.Valid) (ht : totalCombinations specs = .ok total) :
    ParamSet.Close (combinationOf specs defaultK) (defaultParams specs) ↔ ∀ spec ∈ specs, spec.DefaultOnGrid := by
  obtain ⟨-, hcount⟩ := totalCombinations_ok ht
  unfold ParamSet.Close combinationOf defaultParams
  rw [List.forall₂_map_left_iff, List.forall₂_map_right_iff, List.forall₂_same]
  refine forall₂_congr fun spec hspec => ?_
  rw [← (hv spec hspec).close_iff (hcount spec hspec)]
  exact and_iff_right rfl

theorem default_combination_iff (h : parseParamSpecs map = .ok specs) (ht : totalCombinations specs = .ok total) :
    (∃ i, defaultIndex specs = .ok i ∧ i < total ∧ ParamSet.Close (combinationAt specs i) (defaultParams specs)) ↔
      ∀ spec ∈ specs, spec.DefaultOnGrid := by
  have hv := (parseParamSpecs_ok h).1
  obtain ⟨i, hi, hlt, hcombination⟩ := defaultIndex_spec hv ht
  rw [← close_combinationOf_iff hv ht, ← hcombination]
  constructor
  · rintro ⟨j, hj, -, hclose⟩
    obtain rfl := Except.ok.inj (hi.symm.trans hj)
    exact hclose
  · exact fun hclose => ⟨i, hi, hlt, hclose⟩

/-- One integer parameter, in steps of 3 up to a default of `2 ^ 53 + 1`. -/
def sampleWideRange : ParamMap where
  entries := [("length", .map [("min", .int 0), ("max", .int 9007199254740993), ("step", .int 3),
    ("default", .int 9007199254740993)])]
  nodup := by decide

/-- A grid too wide for its default. -/
def sampleWideSpecs : List ParamSpec := [⟨"length", .int, 0, 9007199254740992, 3, 9007199254740992⟩]

theorem sampleWideRange_default :
    parseParamSpecs sampleWideRange = .ok sampleWideSpecs ∧
    totalCombinations sampleWideSpecs = .ok 3002399751580331 ∧
    ¬∃ i, defaultIndex sampleWideSpecs = .ok i ∧ i < 3002399751580331 ∧
      ParamSet.Close (combinationAt sampleWideSpecs i) (defaultParams sampleWideSpecs) := by
  refine ⟨by decide +kernel, by decide +kernel, ?_⟩
  rintro ⟨i, hi, -, hclose⟩
  have hindex : defaultIndex sampleWideSpecs = .ok 3002399751580330 := by decide +kernel
  obtain rfl := Except.ok.inj (hindex.symm.trans hi)
  have hswept : combinationAt sampleWideSpecs 3002399751580330 = [("length", .int 9007199254740990)] := by
    decide +kernel
  have hdefault : defaultParams sampleWideSpecs = [("length", .int 9007199254740992)] := by decide +kernel
  rw [hswept, hdefault] at hclose
  have heq : (9007199254740990 : Int64) = 9007199254740992 := (List.forall₂_cons.mp hclose).1.2
  exact absurd heq (by decide)

/-- An integer and a float parameter. -/
def sampleParams : ParamMap where
  entries := [
    ("width", .map [("min", .float (some (1 / 2))), ("max", .float (some 2)), ("step", .float (some (1 / 2))),
      ("default", .float (some 1))]),
    ("length", .map [("min", .int 5), ("max", .int 22), ("step", .int 5), ("default", .int 10)])]
  nodup := by decide

/-- An integer and a float. -/
def sampleSpecs : List ParamSpec := [⟨"length", .int, 5, 22, 5, 10⟩, ⟨"width", .float, 1 / 2, 2, 1 / 2, 1⟩]

theorem sampleParams_default :
    ∃ i, defaultIndex sampleSpecs = .ok i ∧ i < 16 ∧
      ParamSet.Close (combinationAt sampleSpecs i) (defaultParams sampleSpecs) :=
  (@default_combination_iff sampleParams _ _ (by decide +kernel) (by decide +kernel)).mpr (by decide +kernel)

end AutoTrader.Sim
