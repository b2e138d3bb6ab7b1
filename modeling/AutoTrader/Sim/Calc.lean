import AutoTrader.Core.Types
import AutoTrader.Lib.Loop
import AutoTrader.Lib.MonotoneDeque
import AutoTrader.Sim.Series
import Mathlib.Algebra.Order.Group.Unbundled.Abs
import Mathlib.Algebra.Order.Ring.Rat

/-!
# The indicators of a series

`compute` goes through the bars of a series once and writes the values of an indicator as it goes: `smaSeries`,
`emaSeries`, `rsiSeries`, `atrSeries`, `adxSeries`, `bbSeries`, `donchianSeries` and `keltnerSeries`.

A value is `none` where the code leaves the NaN that it begins with. Nothing is assumed of the floating-point
operations, and the square root is a parameter.
-/

namespace AutoTrader.Sim.Calc

open Lib (loopValues moveDeque)

/-- The functions of `f64` that the calculations call, beside its arithmetic. -/
class FloatFns (F : Type) where
  abs : F → F
  isNan : F → Bool

/-- Exact numbers instead of floats. -/
instance : FloatFns Decimal := ⟨fun x => |x|, fun _ => false⟩

variable {F : Type} [Inhabited F] [NatCast F] [Add F] [Sub F] [Mul F] [Div F]

/-- The values of a series in which none is defined. -/
def allNan (n : Nat) : List (Option F) := List.replicate n none

/-- The sum from the left, started at zero. -/
def sumOf (xs : List F) : F := xs.foldl (· + ·) ((0 : Nat) : F)

/-! ## Moving averages -/

/-- The sum over a window of `period` values moves on to bar `i`. -/
def slide (xs : List F) (period : Nat) (sum : F) (i : Nat) : F :=
  let sum := sum + xs[i]!
  if period ≤ i then sum - xs[i - period]! else sum

/-- `sma_series`: a sliding sum over the period. -/
def smaSeries (closes : List F) (period : Nat) : List (Option F) :=
  if period = 0 then allNan closes.length
  else
    loopValues (slide closes period) (fun sum i => if period ≤ i + 1 then some (sum / (period : F)) else none)
      ((0 : Nat) : F) (List.range closes.length)

/-- One step of the exponential moving average. -/
def emaStep (multiplier emaVal c : F) : F := (c - emaVal) * multiplier + emaVal

/-- `ema_series`: seeded with the mean of the first period. -/
def emaSeries (closes : List F) (period : Nat) : List (Option F) :=
  if period = 0 ∨ closes.length < period then allNan closes.length
  else
    let multiplier := ((2 : Nat) : F) / ((period : F) + ((1 : Nat) : F))
    let seed := sumOf (closes.take period) / (period : F)
    allNan (period - 1) ++ ((closes.drop period).scanl (emaStep multiplier) seed).map some

/-! ## Relative strength -/

section

variable [Neg F] [LT F] [DecidableLT F] [BEq F]

/-- The gains and the losses in the window, with the numbers of their terms. -/
structure Strength (F : Type) where
  gainSum : F
  lossSum : F
  gainCount : Nat
  lossCount : Nat

/-- A sum is zero once its last term has left the window. -/
def zeroSumExactlyWhenItsCountHitsZero (sum : F) (count : Nat) : F := if count = 0 then ((0 : Nat) : F) else sum

/-- The differences of successive closes. -/
def diffs (closes : List F) : List F := (closes.tail.zip closes).map fun (b, a) => b - a

/-- A difference enters the window. -/
def Strength.add (s : Strength F) (d : F) : Strength F :=
  if ((0 : Nat) : F) < d then { s with gainSum := s.gainSum + d, gainCount := s.gainCount + 1 }
  else
    { s with
      lossSum := s.lossSum + -d
      lossCount := if d < ((0 : Nat) : F) then s.lossCount + 1 else s.lossCount }

/-- A difference leaves the window. -/
def Strength.remove (s : Strength F) (old : F) : Strength F :=
  if ((0 : Nat) : F) < old then { s with gainSum := s.gainSum - old, gainCount := s.gainCount - 1 }
  else
    { s with
      lossSum := s.lossSum - -old
      lossCount := if old < ((0 : Nat) : F) then s.lossCount - 1 else s.lossCount }

/-- Both sums, set to zero where their count is. -/
def Strength.zeroed (s : Strength F) : Strength F :=
  { s with
    gainSum := zeroSumExactlyWhenItsCountHitsZero s.gainSum s.gainCount
    lossSum := zeroSumExactlyWhenItsCountHitsZero s.lossSum s.lossCount }

/-- The window after the difference at `k`. -/
def Strength.step (diffs : List F) (period : Nat) (s : Strength F) (k : Nat) : Strength F :=
  let s := s.add diffs[k]!
  let s := if period ≤ k then s.remove diffs[k - period]! else s
  s.zeroed

/-- The relative strength index of a window. -/
def Strength.index (period : Nat) (s : Strength F) : F :=
  let avgGain := s.gainSum / (period : F)
  let avgLoss := s.lossSum / (period : F)
  if avgLoss == ((0 : Nat) : F) then ((100 : Nat) : F)
  else
    let rs := avgGain / avgLoss
    ((100 : Nat) : F) - ((100 : Nat) : F) / (((1 : Nat) : F) + rs)

/-- The window before the first difference. -/
def Strength.init : Strength F := ⟨((0 : Nat) : F), ((0 : Nat) : F), 0, 0⟩

/-- `rsi_series`: one value once a whole period of differences is seen. -/
def rsiSeries (closes : List F) (period : Nat) : List (Option F) :=
  if period = 0 ∨ closes.length < period + 1 then allNan closes.length
  else
    none :: loopValues (Strength.step (diffs closes) period)
      (fun s k => if period ≤ k + 1 then some (s.index period) else none) .init (List.range (diffs closes).length)

end

/-! ## True ranges -/

section

variable [Max F] [FloatFns F]

/-- The true range of the bar at `k`, against the close before it. -/
def trueRange (highs lows closes : List F) (k : Nat) : F :=
  let hl := highs[k]! - lows[k]!
  let hc := FloatFns.abs (highs[k]! - closes[k - 1]!)
  let lc := FloatFns.abs (lows[k]! - closes[k - 1]!)
  max (max hl hc) lc

/-- One step of Wilder's moving average. -/
def wilderStep (p avg value : F) : F := (avg * (p - ((1 : Nat) : F)) + value) / p

/-- `atr_series`: seeded with the mean of the first true ranges. -/
def atrSeries (highs lows closes : List F) (period : Nat) : List (Option F) :=
  if period = 0 ∨ closes.length < period + 1 then allNan closes.length
  else
    let seed := sumOf ((List.range' 1 period).map (trueRange highs lows closes)) / (period : F)
    allNan period ++ (((List.range' (period + 1) (closes.length - (period + 1))).scanl
      (fun atrVal i => wilderStep (period : F) atrVal (trueRange highs lows closes i)) seed).map some)

/-! ## Directional movement -/

variable [LT F] [DecidableLT F] [BEq F]

/-- The upward directional movement into the bar at `j + 1`. -/
def plusDm (highs lows : List F) (j : Nat) : F :=
  let highDiff := highs[j + 1]! - highs[j]!
  let lowDiff := lows[j]! - lows[j + 1]!
  if lowDiff < highDiff ∧ ((0 : Nat) : F) < highDiff then highDiff else ((0 : Nat) : F)

/-- The downward directional movement into the bar at `j + 1`. -/
def minusDm (highs lows : List F) (j : Nat) : F :=
  let highDiff := highs[j + 1]! - highs[j]!
  let lowDiff := lows[j]! - lows[j + 1]!
  if highDiff < lowDiff ∧ ((0 : Nat) : F) < lowDiff then lowDiff else ((0 : Nat) : F)

/-- The state of the loop of `adx_series`. -/
structure AdxState (F : Type) where
  smoothPlus : F
  smoothMinus : F
  smoothTr : F
  dxVals : List F
  adxVal : Option F
  consumed : Nat

/-- One step of Wilder's smoothed total. -/
def smooth (p total value : F) : F := total - total / p + value

/-- A directional index is taken only over a smoothed true range that is not zero. -/
def includesInDxOnlyWhenSmoothTrIsNonzero (smoothTr : F) : Bool := !(smoothTr == ((0 : Nat) : F))

/-- The directional index of the smoothed totals. -/
def dxOf (smoothPlus smoothMinus smoothTr : F) : F :=
  let plusDi := smoothPlus / smoothTr * ((100 : Nat) : F)
  let minusDi := smoothMinus / smoothTr * ((100 : Nat) : F)
  let diSum := plusDi + minusDi
  if diSum == ((0 : Nat) : F) then ((0 : Nat) : F)
  else FloatFns.abs (plusDi - minusDi) / diSum * ((100 : Nat) : F)

/-- The average is seeded once there are enough index values, and takes up those that it has not consumed. -/
def AdxState.takeUp (period : Nat) (s : AdxState F) : AdxState F :=
  match s.adxVal with
  | none =>
    if period ≤ s.dxVals.length then
      { s with adxVal := some (sumOf (s.dxVals.take period) / (period : F)), consumed := period }
    else s
  | some smoothed =>
    { s with
      adxVal := some ((s.dxVals.drop s.consumed).foldl (wilderStep (period : F)) smoothed)
      consumed := s.consumed + (s.dxVals.drop s.consumed).length }

/-- One turn of the loop of `adx_series`. -/
def AdxState.step (highs lows closes : List F) (period : Nat) (s : AdxState F) (j : Nat) : AdxState F :=
  let smoothPlus := smooth (period : F) s.smoothPlus (plusDm highs lows j)
  let smoothMinus := smooth (period : F) s.smoothMinus (minusDm highs lows j)
  let smoothTr := smooth (period : F) s.smoothTr (trueRange highs lows closes (j + 1))
  let dxVals :=
    if includesInDxOnlyWhenSmoothTrIsNonzero smoothTr then s.dxVals ++ [dxOf smoothPlus smoothMinus smoothTr]
    else s.dxVals
  AdxState.takeUp period { s with smoothPlus, smoothMinus, smoothTr, dxVals }

/-- The smoothed totals of the first period. -/
def AdxState.seed (highs lows closes : List F) (period : Nat) : AdxState F where
  smoothPlus := sumOf ((List.range period).map (plusDm highs lows))
  smoothMinus := sumOf ((List.range period).map (minusDm highs lows))
  smoothTr := sumOf ((List.range period).map fun j => trueRange highs lows closes (j + 1))
  dxVals := []
  adxVal := none
  consumed := 0

/-- `adx_series`: from the second period on. -/
def adxSeries (highs lows closes : List F) (period : Nat) : List (Option F) :=
  if period = 0 ∨ closes.length < period * 2 + 1 then allNan closes.length
  else
    let pairCount := closes.length - 1
    allNan (period + 1) ++ loopValues (AdxState.step highs lows closes period) (fun s _ => s.adxVal)
      (.seed highs lows closes period) (List.range' period (pairCount - period))

end

/-! ## Bands and channels -/

/-- The lower band, the middle and the upper band. -/
abbrev BandOf (F : Type) := F × F × F

/-- The variance of a window, summed directly. -/
def computeWindowVarianceDirectly (window : List F) (mean p : F) : F :=
  sumOf (window.map fun x => (x - mean) * (x - mean)) / p

/-- The series of the bands. -/
def bandsOf (values : List (Option (BandOf F))) : IndicatorSeries (Option F) :=
  .band (values.map (·.map (·.1))) (values.map (·.map (·.2.1))) (values.map (·.map (·.2.2)))

/-- The series of the channels. -/
def channelOf (values : List (Option (F × F))) : IndicatorSeries (Option F) :=
  .channel (values.map (·.map (·.1))) (values.map (·.map (·.2)))

/-- The Bollinger band of the window that ends at `i`. -/
def bbAt (sqrt : F → F) (closes : List F) (period : Nat) (mult sum : F) (i : Nat) : BandOf F :=
  let mean := sum / (period : F)
  let window := (closes.take (i + 1)).drop (i + 1 - period)
  let variance := computeWindowVarianceDirectly window mean (period : F)
  let band := sqrt variance * mult
  (mean - band, mean, mean + band)

/-- `bb_series`: the bands over the sliding sum. -/
def bbSeries (sqrt : F → F) (closes : List F) (period : Nat) (mult : F) : List (Option (BandOf F)) :=
  if period = 0 then allNan closes.length
  else
    loopValues (slide closes period)
      (fun sum i => if period ≤ i + 1 then some (bbAt sqrt closes period mult sum i) else none)
      ((0 : Nat) : F) (List.range closes.length)

section

variable [LE F] [DecidableLE F]

/-- The indices that no later one of the window beats, for the highs and for the lows. -/
structure Deques where
  maxDq : List Nat
  minDq : List Nat

/-- Both deques after the bar at `i`. -/
def Deques.step (highs lows : List F) (period : Nat) (s : Deques) (i : Nat) : Deques where
  maxDq := moveDeque (fun back i => decide (highs[back]! ≤ highs[i]!)) period s.maxDq i
  minDq := moveDeque (fun back i => decide (lows[i]! ≤ lows[back]!)) period s.minDq i

omit [NatCast F] [Add F] [Sub F] [Mul F] [Div F] in
theorem Deques.step_maxDq (highs lows : List F) (period : Nat) (s : Deques) (i : Nat) :
    (s.step highs lows period i).maxDq =
      moveDeque (fun back i => decide (highs[back]! ≤ highs[i]!)) period s.maxDq i := rfl

omit [NatCast F] [Add F] [Sub F] [Mul F] [Div F] in
theorem Deques.step_minDq (highs lows : List F) (period : Nat) (s : Deques) (i : Nat) :
    (s.step highs lows period i).minDq =
      moveDeque (fun back i => decide (lows[i]! ≤ lows[back]!)) period s.minDq i := rfl

/-- The lowest low and the highest high. The deques are not empty, which `unreachable!` stands for. -/
def donchianAt (highs lows : List F) (s : Deques) : Option (F × F) :=
  match s.minDq.head?, s.maxDq.head? with
  | some lowest, some highest => some (lows[lowest]!, highs[highest]!)
  | _, _ => none

/-- `donchian_series`: the highest high and the lowest low of each window. -/
def donchianSeries (highs lows : List F) (period : Nat) : List (Option (F × F)) :=
  if period = 0 then allNan highs.length
  else
    loopValues (Deques.step highs lows period)
      (fun s i => if period ≤ i + 1 then donchianAt highs lows s else none) ⟨[], []⟩ (List.range highs.length)

end

section

variable [Max F] [FloatFns F]

/-- The Keltner band at one bar, where both averages are there. -/
def keltnerAt (mult : F) (ema atr : Option F) : Option (BandOf F) :=
  match ema, atr with
  | some ema, some atr =>
    if FloatFns.isNan ema = false ∧ FloatFns.isNan atr = false then
      let band := atr * mult
      some (ema - band, ema, ema + band)
    else none
  | _, _ => none

/-- `keltner_series`: the moving average with the average true range around it. -/
def keltnerSeries (highs lows closes : List F) (period : Nat) (mult : F) : List (Option (BandOf F)) :=
  (emaSeries closes period).zipWith (keltnerAt mult) (atrSeries highs lows closes period)

/-! ## All of them -/

variable [Neg F] [LT F] [DecidableLT F] [LE F] [DecidableLE F] [BEq F]

/-- `compute`: the series of a key over the columns of a timeframe. -/
def compute (sqrt : F → F) (series : TfSeries F) (key : IndicatorKey) : IndicatorSeries (Option F) :=
  let period := key.period
  let mult := (key.multX100 : F) / ((100 : Nat) : F)
  match key.kind with
  | .sma => .single (smaSeries series.close period)
  | .ema => .single (emaSeries series.close period)
  | .rsi => .single (rsiSeries series.close period)
  | .atr => .single (atrSeries series.high series.low series.close period)
  | .adx => .single (adxSeries series.high series.low series.close period)
  | .bb => bandsOf (bbSeries sqrt series.close period mult)
  | .donchian => channelOf (donchianSeries series.high series.low period)
  | .keltner => bandsOf (keltnerSeries series.high series.low series.close period mult)

end

end AutoTrader.Sim.Calc
