import AutoTrader.Strategy.CandleHistory

/-!
# The rule strategies

`BbMeanRevertV1`, `DonchianTrendV1`, `DonchianTrendEvolveV1` and `SqueezeMomentumV1`: the entry signal
that `onPrice` answers a price event with, and what `warmup` stores of an event that is only shown. The
first three keep a history and nothing else; the last one also counts how many bars a squeeze has lasted.
-/

namespace AutoTrader

/-! ## Mean reversion at the Bollinger bands -/

namespace BbMeanRevertV1

/-- Bars of the Bollinger bands. -/
def bbPeriod : Nat := 20

/-- Changes of the relative strength index. -/
def rsiPeriod : Nat := 14

/-- Bars of the average true range. -/
def atrPeriod : Nat := 14

/-- Bars kept. -/
def historyLen : Nat := 200

/-- A long needs a relative strength index below it. -/
def rsiLongThreshold : Decimal := 25

/-- A short needs a relative strength index above it. -/
def rsiShortThreshold : Decimal := 75

/-- The stop in average true ranges. -/
def atrMult : Decimal := 3 / 2

/-- The widest stop, as a part of the price. -/
def slCap : Decimal := 3 / 100

/-- The part of the free balance that an entry asks for. -/
def allocationCap : Decimal := 1

/-- Hours after which a trade is exited. -/
def timeLimitHours : Int := 24

/-- The timeframe of the candles it takes. -/
def timeframe : String := "M5"

/-- Standard deviations of the bands. -/
def bbStdDevMult : Decimal := 5 / 2

/-- The shortest history with a signal. -/
def minHistoryLenForSignal : Nat := max (max bbPeriod (rsiPeriod + 1)) (atrPeriod + 1) + 1

variable (stdDev : Decimal → Option Decimal)

/-- The signal of a history that ends with the candle of `event`. -/
def signal (name : String) (history : List Candle) (event : PriceEvent) : Answer PriceSignal := do
  if history.length < minHistoryLenForSignal then failure
  let closes := closes history
  let highs := highs history
  let lows := lows history
  let (lower, _, upper) ← .ofOption (Indicators.bollingerBands stdDev closes bbPeriod bbStdDevMult)
  let rsi ← .ofOption (Indicators.rsi closes rsiPeriod)
  let atr ← .ofOption (Indicators.atr highs lows closes atrPeriod)
  let entry := event.candle.close
  let stopLossPct := min (← .divide (atr * atrMult) entry) slCap
  if lacksTradableVolatility stopLossPct then failure
  let prevCandle ← .index history (history.length - 2)
  let currCandle ← .index history (history.length - 1)
  let answer (direction : Direction) : PriceSignal :=
    { strategyName := name, pair := event.pair, direction, stopLossPct, takeProfitPct := none
      confidence := 65 / 100, timestamp := event.timestamp, allocationPct := allocationCap
      maxHoldUntil := some (event.timestamp + hours timeLimitHours) }
  if entry < lower ∧ rsi < rsiLongThreshold ∧ currCandle.low < prevCandle.low then
    return answer .long
  if entry > upper ∧ rsi > rsiShortThreshold ∧ currCandle.high > prevCandle.high then
    return answer .short
  failure

/-- The strategy as the engine drives it: a price event at a time, or a warm-up event at a time. -/
def strategy : Lib.Machine HistoryStrategy PriceEvent TickOutcome where
  step event s := s.onPrice timeframe historyLen (signal stdDev) event
  warm event s := s.warmup timeframe historyLen event

end BbMeanRevertV1

/-! ## Breakouts of the Donchian channel -/

namespace DonchianTrend

/-- Bars of the average true range. -/
def atrPeriod : Nat := 14

/-- The stop in average true ranges. -/
def atrMult : Decimal := 3

/-- The widest stop, as a part of the price. -/
def slCap : Decimal := 5 / 100

/-- The part of the free balance that an entry asks for. -/
def allocationCap : Decimal := 1

/-- Bars kept. -/
def historyLen : Nat := 200

/-- The timeframe of the candles it takes. -/
def timeframe : String := "H1"

/-- The signal of both Donchian strategies, by the lengths of the channel and of the baseline. -/
def signal (entryChannel atrBaselineBars : Nat) (name : String) (history : List Candle) (event : PriceEvent) :
    Answer PriceSignal := do
  if history.length < minHistoryLenForEntry entryChannel atrBaselineBars atrPeriod then failure
  let highs := highs history
  let lows := lows history
  let closes := closes history
  let (channelLow, channelHigh) ← .ofOption (channelExcludingCurrentBar highs lows entryChannel)
  let atr ← .ofOption (Indicators.atr highs lows closes atrPeriod)
  let baseline ← .ofOption (baselineAtrExcludingCurrentBar history atrBaselineBars atrPeriod)
  if atr ≤ baseline then failure
  let entry := event.candle.close
  let stopLossPct := min (← .divide (atr * atrMult) entry) slCap
  if lacksTradableVolatility stopLossPct then failure
  let answer (direction : Direction) : PriceSignal :=
    { strategyName := name, pair := event.pair, direction, stopLossPct, takeProfitPct := none
      confidence := 6 / 10, timestamp := event.timestamp, allocationPct := allocationCap, maxHoldUntil := none }
  if entry > channelHigh then
    return answer .long
  if entry < channelLow then
    return answer .short
  failure

end DonchianTrend

namespace DonchianTrendV1

/-- Bars of the channel whose break is an entry. -/
def entryChannel : Nat := 20

/-- Bars of the baseline of the true range. -/
def atrBaselineBars : Nat := 20

/-- `DonchianTrendV1`, by what a price event and a warmup candle do. -/
def strategy : Lib.Machine HistoryStrategy PriceEvent TickOutcome where
  step event s :=
    s.onPrice DonchianTrend.timeframe DonchianTrend.historyLen (DonchianTrend.signal entryChannel atrBaselineBars)
      event
  warm event s := s.warmup DonchianTrend.timeframe DonchianTrend.historyLen event

end DonchianTrendV1

/-- The values of the parameter object that are non-negative integers. -/
structure EvolveParams where
  entryChannel : Option Nat
  exitChannel : Option Nat
  atrBaselineBars : Option Nat
  deriving DecidableEq, Repr

/-- `DonchianTrendEvolveV1`: a Donchian trend with parameters of its own. -/
structure DonchianTrendEvolveV1 extends HistoryStrategy where
  entryChannel : Nat
  exitChannel : Nat
  atrBaselineBars : Nat

namespace DonchianTrendEvolveV1

/-- `Ord::clamp`. -/
def clamp (x lo hi : Nat) : Nat := max lo (min x hi)

/-- The strategy with each given parameter clamped, and the default for the others. -/
def new (name : String) (pairs : List Pair) (params : EvolveParams) : DonchianTrendEvolveV1 :=
  { HistoryStrategy.new name pairs with
    entryChannel := clamp (params.entryChannel.getD 20) 10 30
    exitChannel := clamp (params.exitChannel.getD 10) 5 15
    atrBaselineBars := clamp (params.atrBaselineBars.getD 20) 20 100 }

/-- What a price event does. -/
def onPrice (event : PriceEvent) (s : DonchianTrendEvolveV1) : TickOutcome × DonchianTrendEvolveV1 :=
  let answer := s.toHistoryStrategy.onPrice DonchianTrend.timeframe DonchianTrend.historyLen
    (DonchianTrend.signal s.entryChannel s.atrBaselineBars) event
  (answer.1, { s with toHistoryStrategy := answer.2 })

/-- What a warmup candle does. -/
def warmup (event : PriceEvent) (s : DonchianTrendEvolveV1) : DonchianTrendEvolveV1 :=
  { s with toHistoryStrategy :=
    s.toHistoryStrategy.warmup DonchianTrend.timeframe DonchianTrend.historyLen event }

/-- `DonchianTrendEvolveV1`, by what a price event and a warmup candle do. -/
def strategy : Lib.Machine DonchianTrendEvolveV1 PriceEvent TickOutcome := { step := onPrice, warm := warmup }

end DonchianTrendEvolveV1

/-! ## The end of a squeeze -/

/-- `SqueezeMomentumV1`: it counts for each pair the bars since the squeeze began. -/
structure SqueezeMomentumV1 extends HistoryStrategy where
  squeezeCount : Pair → Nat

namespace SqueezeMomentumV1

/-- Bars of the Bollinger bands. -/
def bbPeriod : Nat := 20

/-- Standard deviations of the bands. -/
def bbStdDev : Decimal := 2

/-- Bars of the Keltner channel. -/
def kcPeriod : Nat := 20

/-- The Keltner channel in average true ranges. -/
def kcAtrMult : Decimal := 3 / 2

/-- Bars of the average true range. -/
def atrPeriod : Nat := 14

/-- Bars of the chandelier exit. -/
def chandelierPeriod : Nat := 22

/-- Bars a squeeze must last. -/
def squeezeBars : Nat := 3

/-- Bars of the swing that bounds the stop. -/
def swingLookback : Nat := 5

/-- The stop in average true ranges. -/
def atrMult : Decimal := 5 / 2

/-- The widest stop, as a part of the price. -/
def slCap : Decimal := 5 / 100

/-- The part of the free balance that an entry asks for. -/
def allocationCap : Decimal := 1

/-- Hours after which a trade is exited. -/
def timeLimitHours : Int := 48

/-- Bars kept. -/
def historyLen : Nat := 200

/-- The timeframe of the candles it takes. -/
def timeframe : String := "H1"

/-- The longest history that an indicator of the strategy looks at. -/
def needed : Nat := max (max (max (max bbPeriod kcPeriod) (atrPeriod + 1)) chandelierPeriod) (swingLookback + 1)

/-- The strategy before its first candle. -/
def new (name : String) (pairs : List Pair) : SqueezeMomentumV1 :=
  { HistoryStrategy.new name pairs with squeezeCount := fun _ => 0 }

variable (stdDev : Decimal → Option Decimal)

/-- The Bollinger bands lie inside the Keltner channels. -/
def isInSqueeze (history : List Candle) : Option Bool := do
  let closes := closes history
  let (bbLo, _, bbUp) ← Indicators.bollingerBands stdDev closes bbPeriod bbStdDev
  let (kcLo, _, kcUp) ← Indicators.keltnerChannels (highs history) (lows history) closes kcPeriod kcAtrMult
  some (bbLo ≥ kcLo ∧ bbUp ≤ kcUp)

/-- One bar more on the count, or the count from the start again. -/
def countBar (prev : Nat) (inSqueeze : Bool) : Nat := if inSqueeze then prev + 1 else 0

/-- One more bar of a pair is counted. -/
def recordSqueezeBar (s : SqueezeMomentumV1) (pair : Pair) (inSqueeze : Bool) : SqueezeMomentumV1 :=
  { s with squeezeCount := Function.update s.squeezeCount pair (countBar (s.squeezeCount pair) inSqueeze) }

/-- A candle enters the history of its pair. -/
def push (s : SqueezeMomentumV1) (pair : Pair) (candle : Candle) : SqueezeMomentumV1 :=
  { s with toHistoryStrategy := s.toHistoryStrategy.push historyLen pair candle }

/-- The signal of a bar that has just ended a squeeze: in the direction of the momentum, where it grows. -/
def breakout (name : String) (history : List Candle) (event : PriceEvent) : Answer PriceSignal := do
  let closes := closes history
  let highs := highs history
  let lows := lows history
  let sma20 ← .ofOption (Indicators.sma closes bbPeriod)
  let momCurr := (← .index closes (closes.length - 1)) - sma20
  let sma20Prev ← .ofOption (Indicators.sma (closes.take (closes.length - 1)) bbPeriod)
  let momPrev := (← .index closes (closes.length - 2)) - sma20Prev
  let entry := event.candle.close
  let atr ← .ofOption (Indicators.atr highs lows closes atrPeriod)
  let stopLossPct := min (← .divide (atr * atrMult) entry) slCap
  if lacksTradableVolatility stopLossPct then failure
  let answer (direction : Direction) : PriceSignal :=
    { strategyName := name, pair := event.pair, direction, stopLossPct, takeProfitPct := none
      confidence := 55 / 100, timestamp := event.timestamp, allocationPct := allocationCap
      maxHoldUntil := some (event.timestamp + hours timeLimitHours) }
  if momCurr > 0 ∧ momCurr > momPrev then
    return answer .long
  if momCurr < 0 ∧ momCurr < momPrev then
    return answer .short
  failure

/-- What a price event does. -/
def onPrice (event : PriceEvent) (s : SqueezeMomentumV1) : TickOutcome × SqueezeMomentumV1 :=
  if s.Takes timeframe event then
    let s := s.push event.pair event.candle
    let history := s.history event.pair
    if history.length < needed + 2 then (.ok none, s)
    else
      match isInSqueeze stdDev history with
      | none => (.ok none, s)
      | some inSqueeze =>
        let prevCount := s.squeezeCount event.pair
        let s := s.recordSqueezeBar event.pair inSqueeze
        let justFired := !inSqueeze && squeezeBars ≤ prevCount
        if justFired then ((breakout s.name history event).run, s) else (.ok none, s)
  else (.ok none, s)

/-- What a warmup candle does. -/
def warmup (event : PriceEvent) (s : SqueezeMomentumV1) : SqueezeMomentumV1 :=
  if s.Takes timeframe event then
    let s := s.push event.pair event.candle
    match isInSqueeze stdDev (s.history event.pair) with
    | none => s
    | some inSqueeze => s.recordSqueezeBar event.pair inSqueeze
  else s

/-- `SqueezeMomentumV1`, by what a price event and a warmup candle do. -/
def strategy : Lib.Machine SqueezeMomentumV1 PriceEvent TickOutcome :=
  { step := onPrice stdDev, warm := warmup stdDev }

end SqueezeMomentumV1

end AutoTrader
