import AutoTrader.Lib.Fallible
import AutoTrader.Lib.SignificantBits
import AutoTrader.Sim.Types
import Mathlib.Data.List.Sort
import Mathlib.Data.Rat.Floor
import Mathlib.Data.String.Basic
import Mathlib.Tactic.Linarith

/-!
# Parameters of a script

A script declares its parameters in a map, which `parseParamSpecs` checks and turns into specs. A run takes
the defaults of the specs (`defaultParams`) or arguments in JSON (`resolveParams`).

A float is an exact rational number here, and every operation on floats is exact; only the conversion of an
integer to a float (`ofI64`) rounds, to 53 significant bits. What an accepted declaration guarantees is
`ParamSpec.Valid` (`parseParamSpecs_valid`).
-/

namespace AutoTrader.Sim

/-! ## Numbers -/

/-- `f64`, by exact rationals. -/
abbrev F64 := Rat

/-- `n as f64` for an `i64`. -/
def ofI64 (n : Int64) : F64 := (Lib.roundInt 53 n.toInt : Int)

/-- `f64::trunc`. -/
def truncF64 (x : F64) : Int := if 0 ≤ x then ⌊x⌋ else ⌈x⌉

/-- `f64::round`: half away from zero. -/
def roundF64 (x : F64) : Int := if 0 ≤ x then ⌊x + 1 / 2⌋ else ⌈x - 1 / 2⌉

/-- `x as i64`. -/
def toI64 (x : F64) : Int64 := Int64.ofIntClamp (truncF64 x)

/-- `u64::MAX`. -/
def maxU64 : Nat := 2 ^ 64 - 1

/-- `x as u64`. -/
def toU64 (x : F64) : Nat := min (truncF64 x).toNat maxU64

/-- `n as u64` for an `i128`. -/
def i128ToU64 (n : Int) : Nat := (n % 2 ^ 64).toNat

/-- `saturating_add` on `u64`. -/
def saturatingAdd (a b : Nat) : Nat := min (a + b) maxU64

/-- How far a float default may be off its grid. -/
def floatGridTolerance : F64 := 1 / 10 ^ 9

theorem truncF64_intCast (n : Int) : truncF64 n = n := by
  simp [truncF64]

theorem toU64_intCast (n : Int) : toU64 n = min n.toNat maxU64 := by
  rw [toU64, truncF64_intCast]

theorem roundF64_intCast (n : Int) : roundF64 n = n := by
  have hup : ⌊(n : Rat) + 1 / 2⌋ = n := Int.floor_eq_iff.mpr ⟨by linarith, by linarith⟩
  have hdown : ⌈(n : Rat) - 1 / 2⌉ = n := Int.ceil_eq_iff.mpr ⟨by linarith, by linarith⟩
  rw [roundF64, hup, hdown, ite_self]

/-- A whole float as an `i64`, which is the nearest one there is. -/
theorem toInt_toI64 (n : Int) : (toI64 n).toInt = max (-2 ^ 63) (min n (2 ^ 63 - 1)) := by
  have hmin : Int64.minValue.toInt = -2 ^ 63 := by decide
  have hmax : Int64.maxValue.toInt = 2 ^ 63 - 1 := by decide
  unfold toI64 Int64.ofIntClamp
  rw [truncF64_intCast]
  split
  · split
    · rw [Int64.toInt_ofIntLE]
      omega
    · omega
  · omega

theorem toInt_toI64_mono {n m : Int} (h : n ≤ m) : (toI64 n).toInt ≤ (toI64 m).toInt := by
  rw [toInt_toI64, toInt_toI64]
  omega

/-- An integer that is turned into a float and back. -/
theorem roundTrip_mono {n m : Int64} (h : n ≤ m) : (toI64 (ofI64 n)).toInt ≤ (toI64 (ofI64 m)).toInt :=
  toInt_toI64_mono (Lib.roundInt_mono (by decide) (Int64.le_iff_toInt_le.mp h))

theorem roundTrip_pos {n : Int64} (h : 0 < n) : 0 < (toI64 (ofI64 n)).toInt := by
  have : (0 : Int) < Lib.roundInt 53 n.toInt := Lib.roundInt_pos (by decide) (Int64.lt_iff_toInt_lt.mp h)
  unfold ofI64
  rw [toInt_toI64]
  omega

/-- A float below `2 ^ 53` was not rounded. -/
theorem roundTrip_of_lt {n : Int64} (h : |ofI64 n| < 2 ^ 53) : (toI64 (ofI64 n)).toInt = n.toInt := by
  have hb : |Lib.roundInt 53 n.toInt| < 2 ^ 53 := by
    unfold ofI64 at h
    exact_mod_cast h
  have hlow : Lib.roundInt 53 (-2 ^ 53) = -2 ^ 53 := by decide +kernel
  have hhigh : Lib.roundInt 53 (2 ^ 53) = 2 ^ 53 := by decide +kernel
  have hn : n.toInt.natAbs < 2 ^ 53 := by
    rw [abs_lt] at hb
    by_contra hn
    rcases (by omega : n.toInt ≤ -2 ^ 53 ∨ 2 ^ 53 ≤ n.toInt) with hle | hle
    · have := Lib.roundInt_mono (p := 53) (by decide) hle
      omega
    · have := Lib.roundInt_mono (p := 53) (by decide) hle
      omega
  unfold ofI64
  rw [toInt_toI64, Lib.roundInt_of_lt (by decide) hn]
  omega

/-! ## Specs and values -/

/-- The kinds of parameters. -/
inductive ParamKind where
  | int
  | float
  deriving DecidableEq, Repr

/-- A parameter of a script, as its `params` function gives it. -/
structure ParamSpec where
  name : String
  kind : ParamKind
  min : F64
  max : F64
  step : F64
  default : F64
  deriving DecidableEq

/-- A value of a parameter. -/
inductive ParamValue where
  | int (n : Int64)
  | float (x : F64)
  deriving DecidableEq

/-- The parameters of a run in the order of their names. -/
abbrev ParamSet := List (String × ParamValue)

/-- A value of the script engine; a float that is infinite or not a number is `none`. -/
inductive Dynamic where
  | int (n : Int64)
  | float (x : Option F64)
  | map (entries : List (String × Dynamic))
  | other

/-- A map of the script engine, which has each key once. -/
structure ParamMap where
  entries : List (String × Dynamic)
  nodup : (entries.map Prod.fst).Nodup

/-! ## Checks -/

/-- The value lies on the grid up to the tolerance. -/
def isOnFloatGrid (value min step : F64) : Bool :=
  let k := roundF64 ((value - min) / step)
  decide (0 ≤ k ∧ |value - (min + k * step)| ≤ floatGridTolerance)

/-- The value lies on the grid. -/
def isOnIntegerGrid (value min step : Int64) : Bool :=
  (value.toInt - min.toInt).tmod step.toInt == 0

/-- The error of a parameter of the script. -/
def invalidParameter (name : String) (text : String) : SimError :=
  .invalidScript [.lit "invalid parameter \"", .arg name, .lit s!"\": {text}"]

/-- The checks of an integer parameter. -/
def validateIntParam (name : String) (min max step default : Int64) : Except SimError (F64 × F64 × F64 × F64) :=
  if ¬(min ≤ default ∧ default ≤ max) then .error (invalidParameter name "must satisfy min <= default <= max")
  else if step ≤ 0 then .error (invalidParameter name "step must be > 0")
  else if !isOnIntegerGrid default min step then
    .error (invalidParameter name "default must equal min + k*step for a non-negative integer k")
  else .ok (ofI64 min, ofI64 max, ofI64 step, ofI64 default)

/-- The checks of a float parameter. -/
def validateFloatParam (name : String) (min max step default : Option F64) : Except SimError (F64 × F64 × F64 × F64) :=
  match min, max, step, default with
  | some min, some max, some step, some default =>
    if ¬(min ≤ default ∧ default ≤ max) then .error (invalidParameter name "must satisfy min <= default <= max")
    else if step ≤ 0 then .error (invalidParameter name "step must be > 0")
    else if !isOnFloatGrid default min step then
      .error (invalidParameter name
        "default must equal min + k*step for a non-negative integer k (value difference within 1e-9)")
    else .ok (min, max, step, default)
  | _, _, _, _ => .error (invalidParameter name "min/max/step/default must be finite")

/-! ## Declarations -/

/-- The parameters that a script may have. -/
def maxParamCount : Nat := 12

/-- The field of a declaration. -/
def specField (name : String) (specMap : List (String × Dynamic)) (key : String) : Except SimError Dynamic :=
  match specMap.lookup key with
  | some d => .ok d
  | none => .error (.invalidScript [.lit "invalid parameter \"", .arg name, .lit "\": missing \"", .arg key, .lit "\""])

/-- One parameter of the map that the script returns. -/
def parseOneParamSpec (name : String) (value : Dynamic) : Except SimError ParamSpec := do
  let .map specMap := value | throw (invalidParameter name "must be a map with min/max/step/default")
  let minD ← specField name specMap "min"
  let maxD ← specField name specMap "max"
  let stepD ← specField name specMap "step"
  let defaultD ← specField name specMap "default"
  match minD, maxD, stepD, defaultD with
  | .int min, .int max, .int step, .int default =>
    let (min, max, step, default) ← validateIntParam name min max step default
    return ⟨name, .int, min, max, step, default⟩
  | .float min, .float max, .float step, .float default =>
    let (min, max, step, default) ← validateFloatParam name min max step default
    return ⟨name, .float, min, max, step, default⟩
  | _, _, _, _ => throw (invalidParameter name "min/max/step/default must all be integers or all be floats")

/-- The parameters of the map, by their names. -/
def parseParamSpecs (map : ParamMap) : Except SimError (List ParamSpec) := do
  if maxParamCount < map.entries.length then
    throw (.invalidScript [.lit s!"invalid parameter count: exceeds the {maxParamCount}-parameter limit"])
  let specs ← map.entries.mapM fun e => parseOneParamSpec e.1 e.2
  return specs.insertionSort fun a b => a.name ≤ b.name

/-! ## What is accepted -/

theorem isOnIntegerGrid_iff {value min step : Int64} :
    isOnIntegerGrid value min step = true ↔ step.toInt ∣ value.toInt - min.toInt := by
  simp only [isOnIntegerGrid, beq_iff_eq]
  exact (Int.dvd_iff_tmod_eq_zero).symm

/-- What the fields of an accepted spec satisfy; those of an integer parameter were checked before they became
floats. -/
def ParamSpec.Valid (spec : ParamSpec) : Prop :=
  match spec.kind with
  | .int => ∃ min max step default : Int64, min ≤ default ∧ default ≤ max ∧ 0 < step ∧
      isOnIntegerGrid default min step ∧
      spec.min = ofI64 min ∧ spec.max = ofI64 max ∧ spec.step = ofI64 step ∧ spec.default = ofI64 default
  | .float => spec.min ≤ spec.default ∧ spec.default ≤ spec.max ∧ 0 < spec.step ∧
      isOnFloatGrid spec.default spec.min spec.step

theorem validateIntParam_ok {name : String} {min max step default : Int64} {r : F64 × F64 × F64 × F64}
    (h : validateIntParam name min max step default = .ok r) :
    min ≤ default ∧ default ≤ max ∧ 0 < step ∧ isOnIntegerGrid default min step ∧
      r = (ofI64 min, ofI64 max, ofI64 step, ofI64 default) := by
  unfold validateIntParam at h
  split at h
  · cases h
  rename_i hrange
  split at h
  · cases h
  rename_i hstep
  split at h
  · cases h
  rename_i hgrid
  rw [not_not] at hrange
  refine ⟨hrange.1, hrange.2, ?_, by simpa using hgrid, (Except.ok.inj h).symm⟩
  rw [Int64.le_iff_toInt_le] at hstep
  rw [Int64.lt_iff_toInt_lt]
  omega

theorem validateFloatParam_ok {name : String} {min max step default : Option F64} {r : F64 × F64 × F64 × F64}
    (h : validateFloatParam name min max step default = .ok r) :
    r.1 ≤ r.2.2.2 ∧ r.2.2.2 ≤ r.2.1 ∧ 0 < r.2.2.1 ∧ isOnFloatGrid r.2.2.2 r.1 r.2.2.1 := by
  unfold validateFloatParam at h
  split at h
  · split at h
    · cases h
    rename_i hrange
    split at h
    · cases h
    rename_i hstep
    split at h
    · cases h
    rename_i hgrid
    obtain rfl := Except.ok.inj h
    rw [not_not] at hrange
    exact ⟨hrange.1, hrange.2, not_le.mp hstep, by simpa using hgrid⟩
  · cases h

theorem parseOneParamSpec_ok {name : String} {value : Dynamic} {spec : ParamSpec}
    (h : parseOneParamSpec name value = .ok spec) : spec.name = name ∧ spec.Valid := by
  unfold parseOneParamSpec at h
  split at h
  · simp only [Lib.bind_eq_ok] at h
    obtain ⟨minD, -, maxD, -, stepD, -, defaultD, -, h⟩ := h
    split at h
    · obtain ⟨r, hr, h⟩ := Lib.bind_eq_ok.mp h
      obtain ⟨hmin, hmax, hstep, hgrid, rfl⟩ := validateIntParam_ok hr
      obtain rfl := Except.ok.inj h
      exact ⟨rfl, _, _, _, _, hmin, hmax, hstep, hgrid, rfl, rfl, rfl, rfl⟩
    · obtain ⟨r, hr, h⟩ := Lib.bind_eq_ok.mp h
      obtain rfl := Except.ok.inj h
      exact ⟨rfl, validateFloatParam_ok hr⟩
    · cases h
  · cases h

instance : Std.Total fun a b : ParamSpec => a.name ≤ b.name := ⟨fun a b => le_total a.name b.name⟩

instance : IsTrans ParamSpec fun a b => a.name ≤ b.name := ⟨fun _ _ _ => le_trans⟩

/-- The specs of a map are valid, and their names ascend. -/
theorem parseParamSpecs_ok {map : ParamMap} {specs : List ParamSpec} (h : parseParamSpecs map = .ok specs) :
    (∀ spec ∈ specs, spec.Valid) ∧ specs.Pairwise fun a b => a.name < b.name := by
  unfold parseParamSpecs at h
  split at h
  · cases h
  obtain ⟨parsed, hparsed, h⟩ := Lib.bind_eq_ok.mp h
  obtain rfl := Except.ok.inj h
  have hperm := List.perm_insertionSort (fun a b : ParamSpec => a.name ≤ b.name) parsed
  have hnames : map.entries.map Prod.fst = parsed.map ParamSpec.name := by
    rw [← List.forall₂_eq_eq_eq, List.forall₂_map_left_iff, List.forall₂_map_right_iff]
    exact (Lib.mapM_eq_ok.mp hparsed).imp fun e spec he => (parseOneParamSpec_ok he).1.symm
  have hne : parsed.Pairwise fun a b => a.name ≠ b.name := by
    have hnodup := map.nodup
    rw [hnames] at hnodup
    exact List.pairwise_map.mp hnodup
  constructor
  · intro spec hspec
    obtain ⟨e, -, he⟩ := Lib.exists_of_mapM_ok hparsed spec (hperm.mem_iff.mp hspec)
    exact (parseOneParamSpec_ok he).2
  · have hne' := (hperm.pairwise_iff fun {_ _} hab => Ne.symm hab).mpr hne
    exact ((List.pairwise_insertionSort _ parsed).and hne').imp fun hab => lt_of_le_of_ne hab.1 hab.2

/-! ## The parameters of a run -/

/-- The default as a value. -/
def resolveDefault (spec : ParamSpec) : ParamValue :=
  match spec.kind with
  | .int => .int (toI64 (roundF64 spec.default))
  | .float => .float spec.default

/-- The defaults of all parameters. -/
def defaultParams (specs : List ParamSpec) : ParamSet := specs.map fun p => (p.name, resolveDefault p)

/-- A JSON value; an integer is one that `i64` or `u64` can hold, and a float is finite. -/
inductive Json where
  | integer (n : Int)
  | float (x : F64)
  | other
  deriving DecidableEq

/-- `as_i64` of a JSON value. -/
def Json.asI64 : Json → Option Int64
  | integer n => if -2 ^ 63 ≤ n ∧ n < 2 ^ 63 then some (.ofInt n) else none
  | _ => none

/-- `as_f64` of a JSON value. -/
def Json.asF64 : Json → Option F64
  | integer n => some (Lib.roundInt 53 n : Int)
  | float x => some x
  | other => none

/-- The error of an argument. -/
def invalidArgument (name : String) (text : String) : SimError :=
  .args [.lit "invalid parameter \"", .arg name, .lit "\": ", .arg text]

/-- An argument is checked against its parameter. -/
def resolveOneParam (spec : ParamSpec) (value : Json) : Except SimError ParamValue :=
  match spec.kind with
  | .int =>
    match value.asI64 with
    | none => .error (invalidArgument spec.name "must be an integer")
    | some n =>
      let min := toI64 spec.min
      let max := toI64 spec.max
      let step := toI64 spec.step
      if n < min ∨ max < n then
        .error (invalidArgument spec.name s!"out of range [{min.toInt}, {max.toInt}]")
      else if step ≠ 0 ∧ !isOnIntegerGrid n min step then
        .error (invalidArgument spec.name s!"not on the step grid (min={min.toInt}, step={step.toInt})")
      else .ok (.int n)
  | .float =>
    match value.asF64 with
    | none => .error (invalidArgument spec.name "must be a number")
    | some x =>
      if x < spec.min - floatGridTolerance ∨ spec.max + floatGridTolerance < x then
        .error (invalidArgument spec.name s!"out of range [{spec.min}, {spec.max}]")
      else if !isOnFloatGrid x spec.min spec.step then
        .error (invalidArgument spec.name s!"not on the step grid (min={spec.min}, step={spec.step})")
      else .ok (.float x)

/-- The value of a parameter that is given or not. -/
def resolveGiven (spec : ParamSpec) : Option Json → Except SimError ParamValue
  | none => .ok (resolveDefault spec)
  | some json => resolveOneParam spec json

/-- The arguments over the defaults. -/
def resolveParams (specs : List ParamSpec) (given : List (String × Json)) : Except SimError ParamSet := do
  given.forM fun e =>
    if (specs.map ParamSpec.name).contains e.1 then pure () else throw (invalidArgument e.1 "unknown")
  specs.mapM fun spec => do
    let value ← resolveGiven spec (given.lookup spec.name)
    return (spec.name, value)

/-- `serde_json::Value::from`. -/
def ParamValue.json : ParamValue → Json
  | int n => .integer n.toInt
  | float x => .float x

/-- The JSON object of a parameter set. -/
def paramsJson (params : ParamSet) : List (String × Json) := params.map fun p => (p.1, p.2.json)

end AutoTrader.Sim
