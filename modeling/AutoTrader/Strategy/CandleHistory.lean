import AutoTrader.Core.Event
import AutoTrader.Lib.Machine
import AutoTrader.Market.Indicators
import Mathlib.Algebra.Ring.Nat
import Mathlib.Logic.Function.Basic

/-!
# Candle histories

What the rule strategies share: a bounded history of candles for each pair (`pushCandle`), the baseline of
the Donchian strategies, and `HistoryStrategy`, the state of a strategy that keeps nothing else.
-/

namespace AutoTrader

/-- What a strategy makes of one price event. A panic is the outcome of its event alone: the state keeps
what was stored before it. -/
abbrev TickOutcome := Except Panic (Option PriceSignal)

/-- One candle more, and the oldest ones out when there are more than `maxLen`. -/
def pushCandle (history : List Candle) (candle : Candle) (maxLen : Nat) : List Candle :=
  (history ++ [candle]).drop ((history ++ [candle]).length - maxLen)

/-- The highs of a history. -/
def highs (history : List Candle) : List Decimal := history.map Candle.high

/-- The lows of a history. -/
def lows (history : List Candle) : List Decimal := history.map Candle.low

/-- The closes of a history. -/
def closes (history : List Candle) : List Decimal := history.map Candle.close

/-- A stop distance that no price movement has given. -/
def lacksTradableVolatility (stopLossPct : Decimal) : Prop := stopLossPct ≤ 0

instance (stopLossPct : Decimal) : Decidable (lacksTradableVolatility stopLossPct) :=
  inferInstanceAs (Decidable (stopLossPct ≤ 0))

/-- The microseconds of `n` hours. -/
def hours (n : Int) : Int := seconds (n * 3600)

/-! ## The Donchian baseline -/

/-- The shortest history with an entry signal. -/
def minHistoryLenForEntry (entryChannel atrBaselineBars atrPeriod : Nat) : Nat :=
  entryChannel + atrBaselineBars + atrPeriod + 1

/-- The shortest history with a baseline. -/
def minHistoryLenForBaselineAtr (atrBaselineBars atrPeriod : Nat) : Nat :=
  atrBaselineBars + atrPeriod + 2

/-- The channel of the candles before the last one. -/
def channelExcludingCurrentBar (highs lows : List Decimal) (channel : Nat) : Option (Decimal × Decimal) :=
  Indicators.donchianChannel highs lows channel false

/-- The average true ranges of the histories that end at the bars from `start` to `latestPrior`. -/
def baselineAtrs (highs lows closes : List Decimal) (start latestPrior atrPeriod : Nat) : List Decimal :=
  ((List.range' start (latestPrior + 1 - start)).filter fun «end» => atrPeriod + 1 ≤ «end»).filterMap fun «end» =>
    Indicators.atr (highs.take («end» + 1)) (lows.take («end» + 1)) (closes.take («end» + 1)) atrPeriod

/-- The mean of the average true ranges of the candles before the last one. -/
def baselineAtrExcludingCurrentBar (history : List Candle) (atrBaselineBars atrPeriod : Nat) : Option Decimal :=
  if history.length < minHistoryLenForBaselineAtr atrBaselineBars atrPeriod then none
  else
    let latestPrior := history.length - 2
    let start := latestPrior + 1 - atrBaselineBars
    let atrs := baselineAtrs (highs history) (lows history) (closes history) start latestPrior atrPeriod
    if atrs.length = 0 then none else some (atrs.sum / (atrs.length : Decimal))

/-! ## Strategies with a history -/

/-- A strategy for some pairs with a candle history for each of them. -/
structure HistoryStrategy where
  name : String
  pairs : List Pair
  history : Pair → List Candle

namespace HistoryStrategy

variable (timeframe : String) (historyLen : Nat) (s : HistoryStrategy)

/-- The strategy before its first candle. -/
def new (name : String) (pairs : List Pair) : HistoryStrategy := { name, pairs, history := fun _ => [] }

/-- The event is a candle of the strategy's timeframe and of one of its pairs. -/
def Takes (event : PriceEvent) : Prop := event.candle.timeframe = timeframe ∧ event.pair ∈ s.pairs

instance (event : PriceEvent) : Decidable (s.Takes timeframe event) :=
  inferInstanceAs (Decidable (_ ∧ _))

/-- A candle enters the history of its pair. -/
def push (pair : Pair) (candle : Candle) : HistoryStrategy :=
  { s with history := Function.update s.history pair (pushCandle (s.history pair) candle historyLen) }

/-- The history takes the candle of the event in, and the signal is read off the history. -/
def onPrice (signal : String → List Candle → PriceEvent → Answer PriceSignal) (event : PriceEvent) :
    TickOutcome × HistoryStrategy :=
  if s.Takes timeframe event then
    let s := s.push historyLen event.pair event.candle
    ((signal s.name (s.history event.pair) event).run, s)
  else (.ok none, s)

/-- What a warmup candle does. -/
def warmup (event : PriceEvent) : HistoryStrategy :=
  if s.Takes timeframe event then s.push historyLen event.pair event.candle else s

theorem warmup_eq_onPrice (signal : String → List Candle → PriceEvent → Answer PriceSignal) (event : PriceEvent) :
    s.warmup timeframe historyLen event = (s.onPrice timeframe historyLen signal event).2 := by
  unfold warmup onPrice
  split <;> rfl

end HistoryStrategy

end AutoTrader
