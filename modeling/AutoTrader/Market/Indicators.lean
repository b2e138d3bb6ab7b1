import AutoTrader.Core.Types
import Mathlib.Algebra.Order.Ring.Rat
import Mathlib.Algebra.Order.Group.Unbundled.Abs

/-!
# Indicators

The technical indicators that the strategies ask for, each computed from scratch over a whole price
history: `sma`, `ema`, `rsi`, `bollingerBands`, `atr`, `donchianChannel`, `adx` and `keltnerChannels`.

Arithmetic is exact, and a division by zero is zero where the program panics. The standard deviation
goes through a floating-point square root, so `bollingerBands` takes the function from a variance to a
deviation as a parameter.
-/

namespace AutoTrader.Indicators

/-! ## Moving averages -/

/-- The average of the last `period` prices. -/
def sma (prices : List Decimal) (period : Nat) : Option Decimal :=
  if prices.length < period then none
  else some ((prices.drop (prices.length - period)).sum / (period : Decimal))

/-- One price more in an exponential average. -/
def emaStep (multiplier emaVal price : Decimal) : Decimal := (price - emaVal) * multiplier + emaVal

/-- The exponential moving average, seeded with the mean of the first period. -/
def ema (prices : List Decimal) (period : Nat) : Option Decimal :=
  if prices.length < period then none
  else
    let multiplier : Decimal := 2 / ((period + 1 : Nat) : Decimal)
    (sma (prices.take period) period).map fun seed => (prices.drop period).foldl (emaStep multiplier) seed

/-- Wilder's smoothing: one value more in an average over `n`. -/
def wilderStep (n avg value : Decimal) : Decimal := (avg * (n - 1) + value) / n

/-! ## Relative strength -/

/-- The differences of neighbouring prices. -/
def changes (prices : List Decimal) : List Decimal := (prices.tail.zip prices).map fun (b, a) => b - a

/-- The gains and the losses with one change more. -/
def addChange (totals : Decimal × Decimal) (change : Decimal) : Decimal × Decimal :=
  if change > 0 then (totals.1 + change, totals.2) else (totals.1, totals.2 + |change|)

/-- The relative strength index of the last period. -/
def rsi (prices : List Decimal) (period : Nat) : Option Decimal :=
  if prices.length < period + 1 then none
  else
    let changes := changes prices
    let recent := changes.drop (changes.length - period)
    let totals := recent.foldl addChange (0, 0)
    let avgGain := totals.1 / (period : Decimal)
    let avgLoss := totals.2 / (period : Decimal)
    if avgLoss = 0 then some 100
    else
      let rs := avgGain / avgLoss
      some (100 - 100 / (1 + rs))

/-! ## Bands and channels -/

/-- The lower band, the middle and the upper band. -/
def bollingerBands (stdDev : Decimal → Option Decimal) (prices : List Decimal) (period : Nat)
    (stdDevMult : Decimal) : Option (Decimal × Decimal × Decimal) := do
  let middle ← sma prices period
  let window := prices.drop (prices.length - period)
  let variance := (window.map fun p => (p - middle) * (p - middle)).sum / (period : Decimal)
  let stdDev ← stdDev variance
  let band := stdDev * stdDevMult
  some (middle - band, middle, middle + band)

/-- The true range of a bar against the close before it. -/
def trueRange (high low prevClose : Decimal) : Decimal :=
  max (max (high - low) |high - prevClose|) |low - prevClose|

/-- The true ranges of every candle but the first. -/
def trueRanges (highs lows closes : List Decimal) : List Decimal :=
  ((highs.tail.zip lows.tail).zip closes).map fun ((high, low), prevClose) => trueRange high low prevClose

/-- Wilder's average true range. -/
def atr (highs lows closes : List Decimal) (period : Nat) : Option Decimal :=
  if highs.length ≠ lows.length ∨ lows.length ≠ closes.length then none
  else if highs.length < period + 1 then none
  else
    let trs := trueRanges highs lows closes
    let seed := (trs.take period).sum / (period : Decimal)
    some ((trs.drop period).foldl (wilderStep period) seed)

/-- The lowest low and the highest high of the last `period` candles, with or without the last one. -/
def donchianChannel (highs lows : List Decimal) (period : Nat) (includeCurrent : Bool) :
    Option (Decimal × Decimal) := do
  if highs.length ≠ lows.length then none
  else if highs = [] then none
  else
    let «end» := if includeCurrent then highs.length else highs.length - 1
    if «end» < period then none
    else
      let lower ← ((lows.take «end»).drop («end» - period)).min?
      let upper ← ((highs.take «end»).drop («end» - period)).max?
      some (lower, upper)

/-- The bands of an average true range around an exponential average. -/
def keltnerChannels (highs lows closes : List Decimal) (period : Nat) (atrMult : Decimal) :
    Option (Decimal × Decimal × Decimal) := do
  let middle ← ema closes period
  let atrVal ← atr highs lows closes period
  let band := atrVal * atrMult
  some (middle - band, middle, middle + band)

/-! ## Directional movement -/

/-- The movement up and the movement down from one candle to the next; at most one of them is not zero. -/
def directionalMovement (highDiff lowDiff : Decimal) : Decimal × Decimal :=
  (if highDiff > lowDiff ∧ highDiff > 0 then highDiff else 0,
    if lowDiff > highDiff ∧ lowDiff > 0 then lowDiff else 0)

/-- The two movements and the true range of every candle but the first. -/
def movements (highs lows closes : List Decimal) : List (Decimal × Decimal × Decimal) :=
  (((highs.tail.zip highs).zip (lows.tail.zip lows)).zip closes).map
    fun (((high, prevHigh), (low, prevLow)), prevClose) =>
      let dm := directionalMovement (high - prevHigh) (prevLow - low)
      (dm.1, dm.2, trueRange high low prevClose)

/-- Wilder's running total: one value more in a total over `p`. -/
def smoothTotal (p total value : Decimal) : Decimal := total - total / p + value

/-- The three running totals and the directional index values so far. -/
structure Directional where
  plus : Decimal
  minus : Decimal
  tr : Decimal
  dxVals : List Decimal

/-- The directional index of three running totals. -/
def directionalIndex (plus minus tr : Decimal) : Decimal :=
  let plusDi := plus / tr * 100
  let minusDi := minus / tr * 100
  let diSum := plusDi + minusDi
  if diSum = 0 then 0 else |plusDi - minusDi| / diSum * 100

/-- One candle more. A total true range of zero leaves no index value. -/
def Directional.step (p : Decimal) (d : Directional) (m : Decimal × Decimal × Decimal) : Directional :=
  let plus := smoothTotal p d.plus m.1
  let minus := smoothTotal p d.minus m.2.1
  let tr := smoothTotal p d.tr m.2.2
  if tr = 0 then { d with plus, minus, tr }
  else { plus, minus, tr, dxVals := d.dxVals ++ [directionalIndex plus minus tr] }

/-- The average directional index. -/
def adx (highs lows closes : List Decimal) (period : Nat) : Option Decimal :=
  if highs.length < period * 2 + 1 ∨ lows.length < period * 2 + 1 ∨ closes.length < period * 2 + 1 then none
  else
    let ms := movements highs lows closes
    let p : Decimal := period
    if ms.length < period * 2 then none
    else
      let seeds := ms.take period
      let seed : Directional :=
        { plus := (seeds.map (·.1)).sum, minus := (seeds.map (·.2.1)).sum, tr := (seeds.map (·.2.2)).sum
          dxVals := [] }
      let dxVals := ((ms.drop period).foldl (Directional.step p) seed).dxVals
      if dxVals.length < period then none
      else
        let firstAdx := (dxVals.take period).sum / p
        some ((dxVals.drop period).foldl (wilderStep p) firstAdx)

end AutoTrader.Indicators
