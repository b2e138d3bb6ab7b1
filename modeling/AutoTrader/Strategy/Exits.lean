import AutoTrader.Backtest.Runner
import AutoTrader.Core.Strategy
import AutoTrader.Strategy.FxNew
import AutoTrader.Strategy.Rules

/-!
# Exits of the rule strategies

What `onOpenPositions` of each strategy asks to close at a price event: positions of its own on the pair of the
event that have earned one R and fall back (`exitsWhere`). None of them changes the state of its strategy.
-/

namespace AutoTrader

/-- The exits of those positions of a strategy on the pair of an event that are `due`, at the close of the event. -/
def exitsWhere (name : String) (event : PriceEvent) (reason : StrategyExitReason) (due : Trade → Bool)
    (positions : List Position) : List ExitSignal :=
  (positions.filter fun pos => pos.trade.strategyName = name ∧ pos.trade.pair = event.pair ∧ due pos.trade).map
    fun pos => { tradeId := pos.trade.id, reason, closePrice := event.candle.close }

/-- The profit at the close of an event has reached one R. -/
def Trade.reachedOneRAt (t : Trade) (close : Decimal) : Bool :=
  hasReachedOneR t.direction t.entryPrice t.stopLoss close

/-- The close has crossed a level against the position: `exitLow` of a long one, `exitHigh` of a short one. -/
def Trade.breaks (t : Trade) (close exitLow exitHigh : Decimal) : Bool :=
  match t.direction with
  | .long => close < exitLow
  | .short => close > exitHigh

namespace BbMeanRevertV1

/-- The close has come back to the mean. -/
def meanReached (t : Trade) (close middle : Decimal) : Bool :=
  match t.direction with
  | .long => close ≥ middle
  | .short => close ≤ middle

/-- The trades of the strategy whose price has come back to the mean. -/
def onOpenPositions (s : HistoryStrategy) (positions : List Position) (event : PriceEvent) : List ExitSignal :=
  if event.candle.timeframe ≠ timeframe then []
  else
    let history := s.history event.pair
    match Indicators.sma (closes history) bbPeriod with
    | none => []
    | some middle =>
      let close := event.candle.close
      exitsWhere s.name event .meanReached (fun t => t.reachedOneRAt close && meanReached t close middle) positions

end BbMeanRevertV1

namespace DonchianTrend

/-- The exits of both Donchian strategies, by the length of the exit channel. -/
def onOpenPositions (exitChannel : Nat) (s : HistoryStrategy) (positions : List Position) (event : PriceEvent) :
    List ExitSignal :=
  if event.candle.timeframe ≠ timeframe then []
  else
    let history := s.history event.pair
    match channelExcludingCurrentBar (highs history) (lows history) exitChannel with
    | none => []
    | some channel =>
      let close := event.candle.close
      exitsWhere s.name event .trailingChannel
        (fun t => t.reachedOneRAt close && t.breaks close channel.1 channel.2) positions

end DonchianTrend

namespace DonchianTrendV1

/-- Bars of the channel whose break is an exit. -/
def exitChannel : Nat := 10

/-- The trades whose channel the candle breaks. -/
def onOpenPositions (s : HistoryStrategy) (positions : List Position) (event : PriceEvent) : List ExitSignal :=
  DonchianTrend.onOpenPositions exitChannel s positions event

end DonchianTrendV1

namespace DonchianTrendEvolveV1

/-- The trades whose channel the candle breaks. -/
def onOpenPositions (s : DonchianTrendEvolveV1) (positions : List Position) (event : PriceEvent) : List ExitSignal :=
  DonchianTrend.onOpenPositions s.exitChannel s.toHistoryStrategy positions event

end DonchianTrendEvolveV1

namespace SqueezeMomentumV1

/-- The chandelier exit in average true ranges. -/
def chandelierAtrMult : Decimal := 3

/-- Bars that a trade is held before its exits are checked. -/
def delayBars : Nat := 3

/-- The start of the hour of a time. -/
def floorToHour (ts : DateTime) : DateTime := ts - Int.emod ts (seconds 3600)

/-- The history, its highest high and lowest low of late, and how far from them the trailing stop is. -/
def exitCheckInputs (s : SqueezeMomentumV1) (event : PriceEvent) :
    Option (List Candle × Decimal × Decimal × Decimal) :=
  if event.candle.timeframe ≠ timeframe then none
  else
    let history := s.history event.pair
    let highs := highs history
    let lows := lows history
    let close := event.candle.close
    match Indicators.atr highs lows (closes history) atrPeriod with
    | none => none
    | some atr =>
      if atr ≤ 0 then none
      else if highs.length < chandelierPeriod ∨ lows.length < chandelierPeriod then none
      else
        let recentHighs := highs.drop (highs.length - chandelierPeriod)
        let recentLows := lows.drop (lows.length - chandelierPeriod)
        some (history, recentHighs.max?.getD close, recentLows.min?.getD close, atr * chandelierAtrMult)

/-- The bars of the history that a position has been held for. -/
def barsHeld (history : List Candle) (t : Trade) : Nat :=
  (history.countP fun c => c.timestamp ≥ floorToHour t.entryAt) - 1

/-- The exit of one position. -/
def exitSignalForPosition (pos : Position) (event : PriceEvent) (history : List Candle)
    (highestHigh lowestLow chandelierOffset : Decimal) (strategyName : String) : Option ExitSignal :=
  if pos.trade.strategyName ≠ strategyName then none
  else if pos.trade.pair ≠ event.pair then none
  else
    let close := event.candle.close
    if barsHeld history pos.trade < delayBars then none
    else if !pos.trade.reachedOneRAt close then none
    else if !pos.trade.breaks close (highestHigh - chandelierOffset) (lowestLow + chandelierOffset) then none
    else some { tradeId := pos.trade.id, reason := .trailingMa, closePrice := close }

/-- The exits of the strategy's positions. -/
def onOpenPositions (s : SqueezeMomentumV1) (positions : List Position) (event : PriceEvent) : List ExitSignal :=
  match s.exitCheckInputs event with
  | none => []
  | some (history, highestHigh, lowestLow, chandelierOffset) =>
    positions.filterMap fun pos =>
      exitSignalForPosition pos event history highestHigh lowestLow chandelierOffset s.name

end SqueezeMomentumV1

namespace FxNewV1

/-- Bars of the channel whose break is an exit. -/
def exitChannel : Nat := 8

/-- The end of an M15 bar. -/
def m15End (candle : Candle) : DateTime := candle.timestamp + seconds m15Seconds

/-- Some candle since the entry, or the current one, has touched the price of one R. A stop on the wrong side is
never far enough from the entry. -/
def reachedOneR (position : Position) (history : List Candle) (current : Candle) : Bool :=
  let trade := position.trade
  let oneR := match trade.direction with
    | .long => trade.entryPrice - trade.stopLoss
    | .short => trade.stopLoss - trade.entryPrice
  if oneR ≤ 0 then false
  else
    let target := match trade.direction with
      | .long => trade.entryPrice + oneR
      | .short => trade.entryPrice - oneR
    ((history.filter fun c => m15End c > trade.entryAt) ++ [current]).any fun c =>
      match trade.direction with
      | .long => decide (c.high ≥ target)
      | .short => decide (c.low ≤ target)

/-- The exits of the strategy's positions. -/
def onOpenPositions (s : FxNewV1) (positions : List Position) (event : PriceEvent) : List ExitSignal :=
  if event.candle.timeframe ≠ "M5" ∨ ¬s.Accepts event then []
  else if ¬IsValidCandle event.candle then []
  else
    let history := s.m15 event.pair
    let closed := history.filter fun c => m15End c ≤ event.candle.timestamp
    match Indicators.donchianChannel (highs closed) (lows closed) exitChannel true with
    | none => []
    | some channel =>
      let close := event.candle.close
      exitsWhere s.name event .trailingChannel
        (fun t => reachedOneR ⟨t⟩ history event.candle && t.breaks close channel.1 channel.2) positions

end FxNewV1

end AutoTrader
