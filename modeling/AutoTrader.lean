import AutoTrader.Executor.Settlement
import AutoTrader.Executor.Notifications
import AutoTrader.Executor.Reads
import AutoTrader.Executor.SilentOpen
import AutoTrader.Executor.OverClose
import AutoTrader.Executor.CloseOrders
import AutoTrader.Executor.Book
import AutoTrader.Executor.CloseLock
import AutoTrader.Executor.Play
import AutoTrader.Executor.Costs
import AutoTrader.Executor.Ledger
import AutoTrader.App.ExecutorLoop
import AutoTrader.App.CryptoMonitor
import AutoTrader.App.ExitExecutor
import AutoTrader.App.StopFills
import AutoTrader.App.OnePosition
import AutoTrader.App.Liquidation
import AutoTrader.App.ClosingMargin
import AutoTrader.App.Reconciled
import AutoTrader.App.SummaryRuns
import AutoTrader.Core.Event
import AutoTrader.Db.Journal
import AutoTrader.Executor.AccountEvents
import AutoTrader.Executor.Executions
import AutoTrader.Executor.Fees
import AutoTrader.Executor.StopInPlace
import AutoTrader.Lib.Machine
import AutoTrader.Market.Indicators
import AutoTrader.Sim.IndicatorCache
import AutoTrader.Sim.Sweep
import AutoTrader.Sim.SweepDelivery
import AutoTrader.Strategy.CandleHistory
import AutoTrader.Strategy.FxNew
import AutoTrader.Strategy.Rules
import AutoTrader.Strategy.Warmup
import AutoTrader.Executor.SafeSize
import AutoTrader.Lib.Counting
import AutoTrader.Lib.Decimal
import AutoTrader.Lib.Fallible
import AutoTrader.Lib.Partition
import AutoTrader.Lib.Radix
import AutoTrader.Lib.SignificantBits
import AutoTrader.Lib.Swing
import AutoTrader.Sim.Bars
import AutoTrader.Sim.Benchmark
import AutoTrader.Sim.Causality
import AutoTrader.Sim.Eval
import AutoTrader.Sim.EvalConsistent
import AutoTrader.Sim.EvalWindow
import AutoTrader.Sim.Fetch
import AutoTrader.Sim.KlineParsing
import AutoTrader.Sim.Params
import AutoTrader.Sim.ProtectiveStop
import AutoTrader.Sim.SelectIndices
import AutoTrader.Sim.SweepArgs
import AutoTrader.Lib.Loop
import AutoTrader.Lib.MonotoneDeque
import AutoTrader.Lib.Window
import AutoTrader.Sim.Calc
import AutoTrader.Sim.CalcPrefix
import AutoTrader.Sim.Completed
import AutoTrader.Sim.Ctx
import AutoTrader.Sim.ExactCalc
import AutoTrader.Sim.LiveIndicators
import AutoTrader.Sim.LookAhead
import AutoTrader.App.StopCommission
import AutoTrader.Market.CandleBatch
import AutoTrader.Sim.Join
import AutoTrader.Strategy.M15
import AutoTrader.App.PaperReads
import AutoTrader.App.SfdAccrual
import AutoTrader.App.SfdHours
import AutoTrader.Lib.Early
import AutoTrader.Market.CheckedIndicators
import AutoTrader.Strategy.Survival
import AutoTrader.App.FeedWatchdog
import AutoTrader.App.FreshnessAlerts
import AutoTrader.App.Overnight
import AutoTrader.App.OvernightCalendar
import AutoTrader.Lib.Script
import AutoTrader.Market.PriceRuns
import AutoTrader.Backtest.Drawdowns
import AutoTrader.Backtest.Accounting
import AutoTrader.Backtest.Runs
import AutoTrader.App.AccountRuns
import AutoTrader.App.BalanceDrift
import AutoTrader.Backtest.RuleRuns
import AutoTrader.Sim.CommandRuns
import AutoTrader.Sim.Backfill
import AutoTrader.Sim.BackfillRuns
import AutoTrader.Sim.Backfilled
