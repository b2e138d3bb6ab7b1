import AutoTrader.Core.Types
import Mathlib.Algebra.Order.Ring.Rat
import Mathlib.Algebra.Order.Group.Unbundled.Abs

/-!
# Backtest reports

`BacktestReport.fromTradesWithFailures` computes the statistics of a run from its list of trades, of which only the
closed ones count. The two fractions are floating-point numbers in the program and exact ones here.
-/

namespace AutoTrader

/-- The gross profit divided by the gross loss. -/
inductive ProfitFactor where
  | finite (q : Decimal)
  | infinity
  deriving DecidableEq

/-- The report of a backtest. -/
structure BacktestReport where
  totalTrades : Nat
  wins : Nat
  losses : Nat
  executionFailures : Nat
  winRate : Decimal
  totalPnl : Decimal
  maxDrawdown : Decimal
  initialBalance : Decimal
  finalBalance : Decimal
  profitFactor : ProfitFactor
  trades : List Trade
  deriving DecidableEq

/-- The closed trades. -/
def closedTrades (trades : List Trade) : List Trade := trades.filter fun t => t.status = .closed

/-- The profits of the closed trades. -/
def closedPnls (trades : List Trade) : List Decimal := (closedTrades trades).map fun t => t.pnlAmount.getD 0

namespace BacktestReport

/-- The state of the drawdown loop. -/
structure Equity where
  peak : Decimal
  maxDd : Decimal
  equity : Decimal

/-- A closed trade enters the equity. -/
def Equity.add (e : Equity) (t : Trade) : Equity :=
  let equity := e.equity + t.pnlAmount.getD 0
  let peak := if equity > e.peak then equity else e.peak
  let dd := peak - equity
  ⟨peak, if dd > e.maxDd then dd else e.maxDd, equity⟩

/-- The deepest fall of the equity below its peak. -/
def maxDrawdownOf (closed : List Trade) (initialBalance : Decimal) : Decimal :=
  (closed.foldl Equity.add ⟨initialBalance, 0, initialBalance⟩).maxDd

/-- The gross profit over the gross loss. -/
def profitFactorOf (closed : List Trade) : ProfitFactor :=
  let pnls := closed.filterMap Trade.pnlAmount
  let grossProfit := (pnls.filter fun p => p > 0).sum
  let grossLoss := ((pnls.filter fun p => p < 0).map fun p => |p|).sum
  if grossLoss > 0 then .finite (grossProfit / grossLoss)
  else if grossProfit > 0 then .infinity
  else .finite 0

/-- The report of a run's trades. -/
def fromTradesWithFailures (trades : List Trade) (initialBalance finalBalance : Decimal) (executionFailures : Nat) :
    BacktestReport :=
  let closed := closedTrades trades
  let totalTrades := closed.length
  let wins := (closed.filter fun t => t.pnlAmount.getD 0 > 0).length
  { totalTrades, wins
    losses := totalTrades - wins
    executionFailures
    winRate := if totalTrades > 0 then (wins : Decimal) / (totalTrades : Decimal) else 0
    totalPnl := (closed.filterMap Trade.pnlAmount).sum
    maxDrawdown := maxDrawdownOf closed initialBalance
    initialBalance, finalBalance
    profitFactor := profitFactorOf closed
    trades }

end BacktestReport

end AutoTrader
