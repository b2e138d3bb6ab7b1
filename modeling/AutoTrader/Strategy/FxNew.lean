import AutoTrader.Strategy.CandleHistory
import Mathlib.Data.List.Sort
import Mathlib.Data.UInt

/-!
# `FxNewV1`

The breakout strategy for one exchange: three M5 candles of a quarter of an hour make an M15 candle
(`aggregateM15`), the M15 history gives the channel and the volatility, and the H1 history the direction.
-/

namespace AutoTrader

/-- `FxNewV1`: M5 candles are merged into M15 bars, and H1 candles give the direction. -/
structure FxNewV1 where
  name : String
  pairs : List Pair
  m5Pending : Pair → List Candle
  m15 : Pair → List Candle
  h1 : Pair → List Candle

namespace FxNewV1

/-- Bars of the channel whose break is an entry. -/
def entryChannel : Nat := 16

/-- The length of an M15 bar. -/
def m15Seconds : Int := 15 * 60

/-- Bars of the average true range. -/
def atrPeriod : Nat := 14

/-- Bars of the baseline of the true range. -/
def atrBaseline : Nat := 20

/-- Bars of the fast hourly average. -/
def h1Fast : Nat := 20

/-- Bars of the slow hourly average. -/
def h1Slow : Nat := 50

/-- The stop in average true ranges. -/
def atrMult : Decimal := 2

/-- The widest stop, as a part of the price. -/
def slCap : Decimal := 2 / 100

/-- The part of the balance that a trade puts at risk. -/
def targetRiskPct : Decimal := 1 / 100

/-- The confidence of every signal. -/
def signalConfidence : Decimal := 65 / 100

/-- The leverage that the allocation is reckoned with. -/
def gmoFxLeverage : Decimal := 10

/-- The exchange whose candles it takes. -/
def fxNewExchange : Exchange := .gmoFx

/-- M15 bars in a trading day. -/
def m15BarsPerTradingDay : Nat := 96

/-- Trading days kept. -/
def historyTradingDays : Nat := 5

/-- Bars kept. -/
def historyLen : Nat := m15BarsPerTradingDay * historyTradingDays

/-- The strategy before its first candle. -/
def new (name : String) (pairs : List Pair) : FxNewV1 :=
  { name, pairs, m5Pending := fun _ => [], m15 := fun _ => [], h1 := fun _ => [] }

variable (s : FxNewV1)

/-- The event is of the exchange and of a pair of the strategy. -/
def Accepts (event : PriceEvent) : Prop := event.exchange = fxNewExchange ∧ event.pair ∈ s.pairs

instance (event : PriceEvent) : Decidable (s.Accepts event) := inferInstanceAs (Decidable (_ ∧ _))

/-- All four prices of a candle are positive. -/
def IsValidCandle (candle : Candle) : Prop :=
  candle.open > 0 ∧ candle.high > 0 ∧ candle.low > 0 ∧ candle.close > 0

instance (candle : Candle) : Decidable (IsValidCandle candle) := inferInstanceAs (Decidable (_ ∧ _ ∧ _ ∧ _))

/-- A valid H1 candle enters the history of its pair. -/
def pushH1 (event : PriceEvent) : FxNewV1 :=
  if IsValidCandle event.candle then
    { s with h1 := Function.update s.h1 event.pair (pushCandle (s.h1 event.pair) event.candle historyLen) }
  else s

/-- A merged bar enters the history of its pair. -/
def pushM15 (pair : Pair) (candle : Candle) : FxNewV1 :=
  { s with m15 := Function.update s.m15 pair (pushCandle (s.m15 pair) candle historyLen) }

/-- The whole seconds of a time. -/
def timestampSeconds (ts : DateTime) : Int := Int.fdiv ts 1000000

/-- The second at which the quarter of an hour begins that a time lies in. -/
def bucketOf (ts : DateTime) : Int := timestampSeconds ts - Int.emod (timestampSeconds ts) m15Seconds

/-- The candle that three M5 candles in the order of their times make. The volumes are added as words, which wrap
around. -/
def mergeM15 (pending : List Candle) (bucket : Int) : Option Candle := do
  let first ← pending.head?
  let last ← pending.getLast?
  let high ← (pending.map Candle.high).max?
  let low ← (pending.map Candle.low).min?
  some { pair := first.pair, exchange := first.exchange, timeframe := "M15", «open» := first.open, high, low
         close := last.close, volume := some (pending.map fun c => c.volume.getD 0).sum
         bestBid := last.bestBid, bestAsk := last.bestAsk, timestamp := seconds bucket }

/-- The pending candles that are kept for an event: those of an earlier quarter are given up. -/
def currentPending (event : PriceEvent) : List Candle :=
  match (s.m5Pending event.pair).head? with
  | none => s.m5Pending event.pair
  | some c => if bucketOf c.timestamp ≠ bucketOf event.candle.timestamp then [] else s.m5Pending event.pair

/-- The pending M5 candles of a pair are replaced. -/
def setPending (pair : Pair) (pending : List Candle) : FxNewV1 :=
  { s with m5Pending := Function.update s.m5Pending pair pending }

/-- An M5 candle joins the pending ones of its bar; three of them are merged. -/
def aggregateM15 (event : PriceEvent) : Option Candle × FxNewV1 :=
  let pending := s.currentPending event
  if pending.any fun c => c.timestamp = event.candle.timestamp then (none, s.setPending event.pair pending)
  else
    let pending := (pending ++ [event.candle]).insertionSort fun a b => a.timestamp ≤ b.timestamp
    if pending.length ≠ 3 then (none, s.setPending event.pair pending)
    else (mergeM15 pending (bucketOf event.candle.timestamp), s.setPending event.pair [])

/-- The direction of the hourly averages. -/
def h1Direction (pair : Pair) : Option Direction := do
  let closes := closes (s.h1 pair)
  let fast ← Indicators.sma closes h1Fast
  let slow ← Indicators.sma closes h1Slow
  if fast > slow then some .long else if fast < slow then some .short else none

/-- The allocation that puts `targetRiskPct` of the balance at risk. -/
def allocationFor (stopLossPct : Decimal) : Answer Decimal := do
  return min (← .divide targetRiskPct (gmoFxLeverage * stopLossPct)) 1

/-- The average true ranges of the bars before the last, each over the history from the baseline's start. -/
def baselineAtrs (history : List Candle) : List Decimal :=
  let priorEnd := history.length - 1
  let baselineStart := priorEnd - (atrBaseline + atrPeriod)
  let first := baselineStart + atrPeriod + 1
  let slice (xs : List Decimal) («end» : Nat) := (xs.take «end»).drop baselineStart
  (List.range' first (priorEnd + 1 - first)).filterMap fun «end» =>
    Indicators.atr (slice (highs history) «end») (slice (lows history) «end») (slice (closes history) «end»)
      atrPeriod

/-- The signal of a new M15 candle, which is the last one of the history. -/
def signal (candle : Candle) (event : PriceEvent) : Answer PriceSignal := do
  let history := s.m15 event.pair
  if history.length < entryChannel + atrBaseline + atrPeriod + 1 then failure
  let highs := highs history
  let lows := lows history
  let closes := closes history
  let (channelLow, channelHigh) ← .ofOption (Indicators.donchianChannel highs lows entryChannel false)
  let atr ← .ofOption (Indicators.atr highs lows closes atrPeriod)
  let atrs := baselineAtrs history
  if atrs.length = 0 then failure
  if atr ≤ (← .divide atrs.sum atrs.length) then failure
  let direction ← .ofOption (s.h1Direction event.pair)
  let entry := candle.close
  let breakout : Bool := match direction with
    | .long => entry > channelHigh
    | .short => entry < channelLow
  if !breakout then failure
  let stopLossPct := min (← .divide (atr * atrMult) entry) slCap
  if stopLossPct ≤ 0 then failure
  return { strategyName := s.name, pair := event.pair, direction, stopLossPct, takeProfitPct := none
           confidence := signalConfidence, timestamp := candle.timestamp
           allocationPct := ← allocationFor stopLossPct, maxHoldUntil := none }

/-- What a price event does. -/
def onPrice (event : PriceEvent) (s : FxNewV1) : TickOutcome × FxNewV1 :=
  if ¬ s.Accepts event then (.ok none, s)
  else if event.candle.timeframe = "H1" then (.ok none, s.pushH1 event)
  else if event.candle.timeframe ≠ "M5" then (.ok none, s)
  else if ¬ IsValidCandle event.candle then (.ok none, s)
  else
    match s.aggregateM15 event with
    | (none, s) => (.ok none, s)
    | (some candle, s) =>
      if ¬ IsValidCandle candle then (.ok none, s)
      else
        let s := s.pushM15 event.pair candle
        ((s.signal candle event).run, s)

/-- What a warmup candle does. -/
def warmup (event : PriceEvent) (s : FxNewV1) : FxNewV1 :=
  if ¬ s.Accepts event then s
  else if event.candle.timeframe = "H1" then s.pushH1 event
  else if event.candle.timeframe = "M5" ∧ ¬ IsValidCandle event.candle then s
  else if event.candle.timeframe = "M5" then
    match s.aggregateM15 event with
    | (none, s) => s
    | (some candle, s) => if IsValidCandle candle then s.pushM15 event.pair candle else s
  else s

/-- `FxNewV1`, by what a price event and a warmup candle do. -/
def strategy : Lib.Machine FxNewV1 PriceEvent TickOutcome := { step := onPrice, warm := warmup }

theorem warmup_eq_onPrice (event : PriceEvent) (s : FxNewV1) : s.warmup event = (s.onPrice event).2 := by
  unfold warmup onPrice
  by_cases hacc : s.Accepts event
  · by_cases hh1 : event.candle.timeframe = "H1"
    · simp [hacc, hh1]
    · by_cases hm5 : event.candle.timeframe = "M5"
      · by_cases hvalid : IsValidCandle event.candle
        · simp only [hacc, hm5, hvalid, not_true_eq_false, and_false, ↓reduceIte, ne_eq]
          rcases s.aggregateM15 event with ⟨_ | candle, t⟩
          · rfl
          · by_cases hc : IsValidCandle candle <;> simp [hc]
        · simp [hacc, hm5, hvalid]
      · simp [hacc, hh1, hm5]
  · simp [hacc]

end FxNewV1

end AutoTrader
