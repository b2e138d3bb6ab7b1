import AutoTrader.Backtest.Report
import AutoTrader.Core.Error
import AutoTrader.Core.Event
import AutoTrader.Executor.PositionSizer
import AutoTrader.Lib.Table
import AutoTrader.Lib.Truncate
import AutoTrader.Market.Indicators

/-!
# Backtest runs

`BacktestRunner.run` replays the stored candles through a strategy. At each candle the fixed exits of the open positions
are tested, then an entry may be opened, and then the strategy may close positions. The list of trades gets a copy of
each trade when it is opened and one when it is closed.

The identifiers of new trades and the order in which the map of positions gives its values are the `Surroundings` of a
run. A stored candle is always a readable one, and a failure of the database is the error that it answers.
-/

namespace AutoTrader

open Piece (lit arg)

/-! ## Strategies -/

/-- A price event with the indicators of its candle. -/
structure IndicatorEvent extends PriceEvent where
  indicators : String → Option Decimal

/-- Why a strategy exits a trade. -/
inductive StrategyExitReason where
  | meanReached
  | trailingChannel
  | trailingMa
  | indicatorReversal
  | timeLimit
  | custom (tag : String)
  deriving DecidableEq, Repr

/-- The exit reason that is stored of a strategy's exit. -/
def StrategyExitReason.toExitReason : StrategyExitReason → ExitReason
  | .meanReached => .strategyMeanReached
  | .trailingChannel => .strategyTrailingChannel
  | .trailingMa => .strategyTrailingMa
  | .indicatorReversal => .strategyIndicatorReversal
  | .timeLimit => .strategyTimeLimit
  | .custom _ => .manual

/-- An exit that a strategy asks for. -/
structure ExitSignal where
  tradeId : Uuid
  reason : StrategyExitReason
  closePrice : Decimal
  deriving DecidableEq, Repr

/-- The methods of a strategy that a run calls, over the states it can be in. -/
structure BacktestStrategy (S : Type) where
  onPrice : S → IndicatorEvent → Option Signal × S
  onOpenPositions : S → List Position → IndicatorEvent → List ExitSignal × S

/-! ## The simulated trader -/

/-- The account of the trades of a backtest. -/
def backtestAccountId : Uuid := 0

/-- The paper trader of a backtest. -/
structure SimTrader where
  exchange : Exchange
  leverage : Decimal
  balance : Decimal
  spreadPct : Decimal
  positions : Lib.Table Trade.id

namespace SimTrader

/-- The trader before its first trade. -/
def new (exchange : Exchange) (initialBalance leverage spreadPct : Decimal) : SimTrader :=
  ⟨exchange, leverage, initialBalance, spreadPct, .empty⟩

variable (trader : SimTrader)

/-- A price with the spread against the buyer or the seller. -/
def applySpread (price : Decimal) (isBuy : Bool) : Decimal :=
  if isBuy then price * (1 + trader.spreadPct) else price * (1 - trader.spreadPct)

/-- The trade with a new identifier and the trader that holds it, if there is a size for it. -/
def «open» (signal : Signal) (rawPrice : Decimal) (sizer : PositionSizer) (liquidationMarginLevel : Decimal)
    (now : DateTime) (newId : Uuid) : Option (Trade × SimTrader) :=
  let entryPrice := trader.applySpread rawPrice (signal.direction = .long)
  (sizer.calculateQuantity signal.pair trader.balance entryPrice trader.leverage signal.allocationPct
    signal.stopLossPct liquidationMarginLevel).map fun quantity =>
    let stopLoss := match signal.direction with
      | .long => entryPrice * (1 - signal.stopLossPct)
      | .short => entryPrice * (1 + signal.stopLossPct)
    let takeProfit := signal.takeProfitPct.map fun pct => match signal.direction with
      | .long => entryPrice * (1 + pct)
      | .short => entryPrice * (1 - pct)
    let trade : Trade :=
      { id := newId
        accountId := backtestAccountId
        strategyName := signal.strategyName
        pair := signal.pair
        exchange := trader.exchange
        direction := signal.direction
        entryPrice
        exitPrice := none
        stopLoss, takeProfit, quantity
        leverage := trader.leverage
        fees := 0
        entryAt := now
        exitAt := none
        pnlAmount := none
        exitReason := none
        status := .open
        maxHoldUntil := signal.maxHoldUntil
        exchangePositionId := none
        stopOrderId := none }
    (trade, { trader with positions := trader.positions.upsert trade fun _ => trade })

/-- The price a trade is closed at. -/
def exitPrice (trade : Trade) (rawExitPrice : Decimal) : Decimal :=
  trader.applySpread rawExitPrice (trade.direction = .short)

/-- The profit of a trade closed from `rawExitPrice`. -/
def pnlAmount (trade : Trade) (rawExitPrice : Decimal) : Decimal :=
  let exitPrice := trader.exitPrice trade rawExitPrice
  let priceDiff := match trade.direction with
    | .long => exitPrice - trade.entryPrice
    | .short => trade.entryPrice - exitPrice
  Lib.truncate (priceDiff * trade.quantity)

/-- The closed copy of a trade. -/
def closed (trade : Trade) (reason : ExitReason) (rawExitPrice : Decimal) (now : DateTime) : Trade :=
  { trade with
    exitPrice := some (trader.exitPrice trade rawExitPrice)
    exitAt := some now
    pnlAmount := some (trader.pnlAmount trade rawExitPrice)
    exitReason := some reason
    status := .closed }

/-- A position is closed and its profit enters the balance. -/
def close (id : Uuid) (reason : ExitReason) (rawExitPrice : Decimal) (now : DateTime) :
    Except Error (Trade × SimTrader) :=
  match trader.positions.find? id with
  | none => .error [lit "invalid position \"", arg (toString id), lit "\": not found"]
  | some trade => .ok (trader.closed trade reason rawExitPrice now,
      { trader with
        positions := trader.positions.erase id
        balance := trader.balance + trader.pnlAmount trade rawExitPrice })

end SimTrader

/-! ## Indicators -/

/-- Bars of the short moving average. -/
def smaShortPeriod : Nat := 20

/-- Bars of the long moving average. -/
def smaLongPeriod : Nat := 50

/-- Changes of the relative strength index. -/
def rsiPeriod : Nat := 14

/-- Candles that the indicators look at. -/
def indicatorLookbackCandles : Nat := smaLongPeriod

/-- The closes that the indicators of candle `i` look at. -/
def recentCloses (candles : List Candle) (i : Nat) : List Decimal :=
  let start := i + 1 - indicatorLookbackCandles
  ((candles.take (i + 1)).drop start).map Candle.close

/-- The indicators of a list of closes, by their names. -/
def indicatorsOf (closes : List Decimal) (name : String) : Option Decimal :=
  if name = "sma_20" then Indicators.sma closes smaShortPeriod
  else if name = "sma_50" then Indicators.sma closes smaLongPeriod
  else if name = "rsi_14" then Indicators.rsi closes rsiPeriod
  else none

/-- The indicators that the strategy is given with candle `i`. -/
def indicatorsUpTo (candles : List Candle) (i : Nat) : String → Option Decimal := indicatorsOf (recentCloses candles i)

namespace Indicators

/-- The average looks at the last prices only. -/
theorem sma_drop {prices : List Decimal} {period d : Nat} (h : period + d ≤ prices.length) :
    sma (prices.drop d) period = sma prices period := by
  have hlen : (prices.drop d).length = prices.length - d := List.length_drop
  rw [sma, sma, if_neg (by omega), if_neg (by omega), List.drop_drop, hlen]
  congr 4
  omega

theorem changes_drop (prices : List Decimal) (d : Nat) : changes (prices.drop d) = (changes prices).drop d := by
  rw [changes, changes, ← List.map_drop, List.zip_eq_zipWith, List.zip_eq_zipWith, List.drop_zipWith, List.tail_drop,
    List.drop_tail]

theorem rsi_drop {prices : List Decimal} {period d : Nat} (h : period + 1 + d ≤ prices.length) :
    rsi (prices.drop d) period = rsi prices period := by
  have hlen : (changes prices).length = prices.length - 1 := by simp [changes]
  have hrecent : (changes (prices.drop d)).drop ((changes (prices.drop d)).length - period) =
      (changes prices).drop ((changes prices).length - period) := by
    rw [changes_drop, List.drop_drop, List.length_drop, hlen]
    congr 1
    omega
  have hlen' : (prices.drop d).length = prices.length - d := List.length_drop
  have hlong : ¬(prices.drop d).length < period + 1 := by omega
  have hlong' : ¬prices.length < period + 1 := by omega
  rw [rsi, rsi, if_neg hlong, if_neg hlong']
  dsimp only
  rw [hrecent]

end Indicators

/-- The window of the latest closes is long enough: the indicators are those of all closes so far. -/
theorem indicatorsUpTo_eq {candles : List Candle} {i : Nat} (hi : i < candles.length) :
    indicatorsUpTo candles i = indicatorsOf ((candles.take (i + 1)).map Candle.close) := by
  have hlen : ((candles.take (i + 1)).map Candle.close).length = i + 1 := by
    rw [List.length_map, List.length_take]
    omega
  rw [indicatorsUpTo, show recentCloses candles i =
    ((candles.take (i + 1)).map Candle.close).drop (i + 1 - 50) from List.map_drop ..]
  generalize (candles.take (i + 1)).map Candle.close = closes at hlen
  rcases Nat.lt_or_ge 50 (i + 1) with hlong | hshort
  · funext name
    unfold indicatorsOf smaShortPeriod smaLongPeriod rsiPeriod
    rw [Indicators.sma_drop (by omega), Indicators.sma_drop (by omega), Indicators.rsi_drop (by omega)]
  · rw [Nat.sub_eq_zero_of_le hshort, List.drop_zero]

/-! ## One candle -/

/-- The exit whose price the candle touches; the stop before the take-profit. -/
def fixedExitFor (t : Trade) (candle : Candle) : Option (ExitReason × Decimal) :=
  match t.direction with
  | .long =>
    if candle.low ≤ t.stopLoss then some (.slHit, t.stopLoss)
    else match t.takeProfit with
      | some tp => if candle.high ≥ tp then some (.tpHit, tp) else none
      | none => none
  | .short =>
    if candle.high ≥ t.stopLoss then some (.slHit, t.stopLoss)
    else match t.takeProfit with
      | some tp => if candle.low ≤ tp then some (.tpHit, tp) else none
      | none => none

/-- The `n`-th new identifier, and the order in which the positions are given when they are read for the `n`-th time. -/
structure Surroundings where
  newId : Nat → Uuid
  newId_injective : Function.Injective newId
  values : Nat → List Trade → List Trade
  values_perm : ∀ n trades, (values n trades).Perm trades

/-- The state of a run between two candles. -/
structure RunState (S : Type) where
  trader : SimTrader
  strategy : S
  trades : List Trade
  executionFailures : Nat
  /-- Identifiers drawn so far. -/
  ids : Nat
  /-- Reads of the positions so far. -/
  reads : Nat

namespace RunState

variable {S : Type}

/-- A trade is closed, and its copy added to the trades. -/
def close (st : RunState S) (id : Uuid) (reason : ExitReason) (price : Decimal) (now : DateTime) :
    Except Error (RunState S) := do
  let closed ← st.trader.close id reason price now
  return { st with trader := closed.2, trades := st.trades ++ [closed.1] }

variable (s : Surroundings)

/-- The open positions in the order of the map at this read. -/
def openPositions (st : RunState S) : List Trade := s.values st.reads st.trader.positions.rows

/-- The state after a read of the positions. -/
def read (st : RunState S) : RunState S := { st with reads := st.reads + 1 }

/-- A position is closed where the candle reaches its stop or its target. -/
def closeIfHit (pair : Pair) (candle : Candle) (st : RunState S) (t : Trade) : Except Error (RunState S) :=
  if t.pair ≠ pair then .ok st
  else match fixedExitFor t candle with
    | none => .ok st
    | some exit => st.close t.id exit.1 exit.2 candle.timestamp

/-- The positions that the candle stops, in the order of the map. -/
def closeHitFixedExits (pair : Pair) (candle : Candle) (st : RunState S) : Except Error (RunState S) :=
  (st.openPositions s).foldlM (closeIfHit pair candle) st.read

/-- The signal of the strategy on a candle, and the trade it opens. -/
def tryOpenNewEntry (strategy : BacktestStrategy S) (event : IndicatorEvent) (sizer : PositionSizer)
    (liquidationMarginLevel : Decimal) (st : RunState S) : RunState S :=
  let answer := strategy.onPrice st.strategy event
  let st := { st with strategy := answer.2 }
  match answer.1 with
  | none => st
  | some signal =>
    let hasPos := (st.openPositions s).any fun t =>
      t.strategyName = signal.strategyName ∧ t.pair = signal.pair
    let st := st.read
    if hasPos then st
    else match st.trader.open signal event.candle.close sizer liquidationMarginLevel event.timestamp
        (s.newId st.ids) with
      | some opened => { st with trader := opened.2, trades := st.trades ++ [opened.1], ids := st.ids + 1 }
      | none => { st with executionFailures := st.executionFailures + 1 }

/-- The exits that the strategy asks for on the positions open now. -/
def closeStrategyDrivenExits (strategy : BacktestStrategy S) (event : IndicatorEvent) (st : RunState S) :
    Except Error (RunState S) :=
  let openPositions := (st.openPositions s).map Position.mk
  let answer := strategy.onOpenPositions st.strategy openPositions event
  answer.1.foldlM (fun st exit => st.close exit.tradeId exit.reason.toExitReason exit.closePrice event.timestamp)
    { st.read with strategy := answer.2 }

end RunState

/-! ## Runs -/

/-- What a run is asked for. -/
structure BacktestRunner where
  exchange : Exchange
  pair : Pair
  timeframe : String
  initialBalance : Decimal
  leverage : Decimal
  sizer : PositionSizer
  liquidationMarginLevel : Decimal
  spreadPct : Decimal

namespace BacktestRunner

variable {S : Type} (r : BacktestRunner)

/-- The candles in the order of time, of the answer of the database, which has the latest one first. -/
def loadChronologicalCandles (stored : Except Error (List Candle)) : Except Error (List Candle) := do
  let candles ← stored
  let candles := candles.reverse
  if candles.isEmpty then
    throw [lit "failed to load candles: no data for exchange ", arg (reprStr r.exchange), lit " pair ", arg r.pair,
      lit " timeframe ", arg r.timeframe]
  return candles

/-- What the strategy is given with candle `i`. -/
def event (candles : List Candle) (i : Nat) (candle : Candle) : IndicatorEvent where
  pair := r.pair
  exchange := r.exchange
  candle := candle
  indicators := indicatorsUpTo candles i
  timestamp := candle.timestamp

variable (s : Surroundings) (strategy : BacktestStrategy S)

/-- The three phases of the candle at an index. -/
def runCandle (candles : List Candle) (st : RunState S) (entry : Candle × Nat) : Except Error (RunState S) := do
  let event := r.event candles entry.2 entry.1
  let st ← st.closeHitFixedExits s r.pair entry.1
  let st := st.tryOpenNewEntry s strategy event r.sizer r.liquidationMarginLevel
  st.closeStrategyDrivenExits s strategy event

/-- The state before the first candle. -/
def start (state : S) : RunState S :=
  ⟨.new r.exchange r.initialBalance r.leverage r.spreadPct, state, [], 0, 0, 0⟩

/-- The state before the candle at index `k`. -/
def before (state : S) (candles : List Candle) (k : Nat) : Except Error (RunState S) :=
  (candles.zipIdx.take k).foldlM (r.runCandle s strategy candles) (r.start state)

/-- The whole run over the stored candles. -/
def run (state : S) (stored : Except Error (List Candle)) : Except Error BacktestReport := do
  let candles ← r.loadChronologicalCandles stored
  let st ← candles.zipIdx.foldlM (r.runCandle s strategy candles) (r.start state)
  return .fromTradesWithFailures st.trades r.initialBalance st.trader.balance st.executionFailures

end BacktestRunner

end AutoTrader
