import AutoTrader.Db.Summary
import AutoTrader.Executor.Actor
import AutoTrader.Lib.Group
import AutoTrader.Lib.Sequential
import Mathlib.Data.List.Dedup

/-!
# Reconciliation at startup

`reconcileOneAccount` compares the unsettled trades of an account with the positions of its exchange, for
each pair and direction in total, and then opens or closes every trade of the group. It runs before the
tasks of the program are started, so nothing else writes the database. `StartupCalls` is the interface of
the executor with what the reconciliation asks besides, and `startupHandler` answers it from one database
and one list of positions for each pair.
-/

namespace AutoTrader

open Lib (Iface Prog)
open Piece (lit arg)

/-! ## Calls -/

/-- What the startup reconciliation calls, beside the calls of the trading code. -/
inductive StartupCall where
  | trading (c : Call)
  | listOpenOrClosingByAccount (accountId : Uuid)
  /-- `SELECT account_type FROM trading_accounts`. -/
  | accountType (accountId : Uuid)
  | upsertDailySummary (key : SummaryKey) (tradeCountDelta winCountDelta : Int) (pnlDelta : Decimal)
  /-- An alert that is sent through the notifier. -/
  | systemAlert (title accountName : String) (exchange : Exchange) (body : List Piece)

/-- What each call returns. -/
@[reducible] def StartupCall.Ret : StartupCall → Type
  | .trading c => c.Ret
  | .listOpenOrClosingByAccount _ => Except Error (List Trade)
  | .accountType _ => Except Error (Option Bool)
  | .upsertDailySummary _ _ _ _ => Except Error Unit
  | .systemAlert _ _ _ _ => Except Error Unit

/-- The interface of the startup reconciliation. -/
@[reducible] def StartupCalls : Iface := ⟨StartupCall, StartupCall.Ret⟩

/-- A program of the startup reconciliation that can fail. -/
abbrev Startup := ExceptT Error (Prog StartupCalls)

/-- One call. -/
def ask (c : StartupCall) : Prog StartupCalls c.Ret := Prog.perform (I := StartupCalls) c

/-- A program of the executor. -/
def asks {α : Type} (x : Prog Calls α) : Prog StartupCalls α := x.trans fun c => ask (.trading c)

/-- A program of the trading code, run in the reconciliation. -/
def trading {α : Type} (x : Exec α) : Startup α := ExceptT.mk (asks x.run)

/-! ## Positions -/

/-- The account that is reconciled, with the name that alerts and errors give it. -/
structure AccountScope where
  account : TradingAccount
  name : String

/-- `some true` for a position on the side of the direction, `none` for an unknown side. -/
def matchesDirection (side : String) (direction : Direction) : Option Bool :=
  (exchangeSideToDirection side).map fun d => d = direction

/-- The size so far and whether there was a conflict, with one more position. -/
def addPosition (direction : Direction) (acc : Decimal × Bool) (p : ExchangePosition) : Decimal × Bool :=
  if p.size ≤ 0 then acc
  else match matchesDirection p.side direction with
    | some true => (acc.1 + p.size, acc.2)
    | some false => (acc.1, true)
    | none => (acc.1, true)

/-- The total size on the side of the direction, and whether there is a position on another side. -/
def sumMatchingExchangeSize (pairPositions : List ExchangePosition) (direction : Direction) : Decimal × Bool :=
  pairPositions.foldl (addPosition direction) (0, false)

/-- The number of attempts is `attempts`, with waits between them. -/
def getPositionsWithRetry (pair : Pair) : (attempts : Nat) → Option ApiError →
    Prog StartupCalls (Except ApiError (List ExchangePosition))
  | 0, lastErr => return .error (lastErr.getD "failed to get_positions: retries exhausted")
  | attempts + 1, _ => do
    match ← asks (api (.getPositions pair)) with
    | .ok ps => return .ok ps
    | .error e => getPositionsWithRetry pair attempts (some e)

/-- Attempts at a read of the positions. -/
def maxAttemptsToAbsorbApiBlips : Nat := 3

/-- The positions of each pair; the first read that keeps failing ends it. -/
def fetchExchangePositions (accountName : String) : List Pair → Startup (List (Pair × List ExchangePosition))
  | [] => pure []
  | pair :: pairs => do
    match ← getPositionsWithRetry pair maxAttemptsToAbsorbApiBlips none with
    | .ok ps =>
      let rest ← fetchExchangePositions accountName pairs
      return (pair, ps) :: rest
    | .error e =>
      throw [lit "failed to get_positions: retries exhausted for account \"", arg accountName, lit "\" pair \"",
        arg pair, lit "\": ", arg e]

/-- Each pair of the trades once. -/
def collectDistinctPairs (dbTrades : List Trade) : List Pair := (dbTrades.map Trade.pair).dedup

/-- The trades of one pair and direction, with their total quantity. -/
abbrev TradeGroup := (Pair × Direction) × Decimal × List Trade

/-- The trades by pair and direction, each group with the sum of its quantities. -/
def groupTradesForAggregateComparison (dbTrades : List Trade) : List TradeGroup :=
  (Lib.groupBy (fun trade => (trade.pair, trade.direction)) dbTrades).map fun (key, trades) =>
    (key, (trades.map Trade.quantity).sum, trades)

/-- A group is refused over a conflicting position or another size on the exchange. -/
def rejectAggregateMismatch (accountName : String) (pair : Pair) (direction : Direction)
    (dbTotalQty matchingExchangeSize : Decimal) (exchangeHasConflicting : Bool) : Except Error Unit :=
  if exchangeHasConflicting then
    .error [lit "failed to reconcile: conflicting exchange position for pair \"", arg pair, lit "\" direction ",
      arg (reprStr direction), lit " on account \"", arg accountName, lit "\"; manual intervention required"]
  else if matchingExchangeSize > 0 ∧ matchingExchangeSize ≠ dbTotalQty then
    .error [lit "failed to reconcile: size mismatch for pair \"", arg pair, lit "\" direction ",
      arg (reprStr direction), lit " (db_total=", arg (reprStr dbTotalQty), lit ", exchange=",
      arg (reprStr matchingExchangeSize), lit ") on account \"", arg accountName,
      lit "\"; manual intervention required"]
  else .ok ()

/-! ## One trade -/

/-- The alert over a stop order that is gone while the position is there. -/
def notifyStopOrderLost (scope : AccountScope) (trade : Trade) (stopId : String) : Prog StartupCalls Unit := do
  let _ ← ask (.systemAlert "stop order lost" scope.name trade.exchange
    [lit "trade ", arg (toString trade.id), lit " on ", arg trade.pair,
      lit " has an open exchange position but its SL stop order (", arg stopId,
      lit ") is gone (canceled/expired). The position is unprotected — replace the stop or close manually."])

/-- A trade whose stop order is gone is alerted. -/
def alertIfProtectiveStopIsGone (scope : AccountScope) (trade : Trade) (stopId : String) : Prog StartupCalls Unit := do
  match ← asks (api (.stopOrderStatus trade.pair stopId)) with
  | .ok .gone => notifyStopOrderLost scope trade stopId
  | _ => return

/-- The fill of the stop order of a trade, where the exchange says it was executed. -/
def stopExecutedFill (trade : Trade) : Prog StartupCalls (Option (Decimal × Decimal)) := do
  match trade.stopOrderId with
  | none => return none
  | some stopId =>
    match ← asks (api (.stopOrderStatus trade.pair stopId)) with
    | .ok (.executed price commission) => return some (price, commission)
    | _ => return none

/-- The middle of the latest tick, or the entry price where there is none. -/
def bestEffortExitPrice (trade : Trade) : Prog StartupCalls Decimal := do
  match ← asks (latestTick trade.exchange trade.pair) with
  | some (bid, ask) => return (bid + ask) / 2
  | none => return trade.entryPrice

/-- The day is that of the process when the close is recorded. A failed update is only logged. -/
def backfillDailySummaryForReconciledClose (trade : Trade) (pnl : Decimal) : Startup Unit := do
  let now ← (liftM (asks utcNow) : Startup DateTime)
  let exitDate := DateTime.dateNaive now
  let win := if pnl > 0 then 1 else 0
  let live ← ExceptT.mk (ask (.accountType trade.accountId))
  let _ ← (liftM (ask (.upsertDailySummary
    ⟨exitDate, trade.strategyName, trade.pair, live.getD false, trade.exchange, some trade.accountId⟩ 1 win pnl)) :
      Startup (Except Error Unit))
  return

/-- The close of a trade at a price, with the profit of that price. -/
def closeReconciledWith (trade : Trade) (exitPrice : Decimal) (exitReason : ExitReason) (extraFees : Decimal) :
    Startup Unit := do
  let pnl := Lib.truncate (match trade.direction with
    | .long => (exitPrice - trade.entryPrice) * trade.quantity
    | .short => (trade.entryPrice - exitPrice) * trade.quantity)
  if extraFees ≠ 0 then trading (query (.addFees trade.id extraFees))
  trading (closeTradeReconciled trade.id exitPrice pnl exitReason)
  backfillDailySummaryForReconciledClose trade pnl

/-- The close of a trade whose exit price is not known. -/
def forceCloseAtBestEffortPrice (trade : Trade) : Startup Unit := do
  let exitPrice ← bestEffortExitPrice trade
  closeReconciledWith trade exitPrice .reconciled 0

/-- An open trade with a position: only its stop order is checked. -/
def reconcileOpenMatching (scope : AccountScope) (trade : Trade) : Startup Unit := do
  match trade.stopOrderId with
  | some stopId => alertIfProtectiveStopIsGone scope trade stopId
  | none => return

/-- An open trade without a position: closed at its stop fill, or else at the best known price. -/
def reconcileOpenOrphan (trade : Trade) : Startup Unit := do
  match ← stopExecutedFill trade with
  | some (price, commission) => closeReconciledWith trade price .slHit commission
  | none => forceCloseAtBestEffortPrice trade

/-- What is done with a trade, by its status and by whether the exchange has its position. -/
def reconcileTrade (scope : AccountScope) (trade : Trade) (exchangeHasMatching : Bool) : Startup Unit :=
  match trade.status, exchangeHasMatching with
  | .open, true => reconcileOpenMatching scope trade
  | .open, false => reconcileOpenOrphan trade
  | .closing, true => trading (query (.releaseCloseLock trade.id))
  | .closing, false => forceCloseAtBestEffortPrice trade
  | .closed, _ => throw [lit "unsupported trade_status for trade \"", arg (toString trade.id), lit "\": ", arg "closed"]

/-! ## One account -/

/-- The trades of a group, in order; the first error ends it. -/
def reconcileTrades (scope : AccountScope) (exchangeHasMatching : Bool) : List Trade → Startup Unit
  | [] => pure ()
  | trade :: trades => do
    reconcileTrade scope trade exchangeHasMatching
    reconcileTrades scope exchangeHasMatching trades

/-- The groups, in order; a refused group ends it. -/
def reconcileGroups (scope : AccountScope) (exchangePositions : List (Pair × List ExchangePosition)) :
    List TradeGroup → Startup Unit
  | [] => pure ()
  | ((pair, direction), dbTotalQty, trades) :: groups => do
    let pairPositions := (exchangePositions.lookup pair).getD []
    let (matchingExchangeSize, exchangeHasConflicting) := sumMatchingExchangeSize pairPositions direction
    match rejectAggregateMismatch scope.name pair direction dbTotalQty matchingExchangeSize exchangeHasConflicting with
    | .error e => throw e
    | .ok () =>
      reconcileTrades scope (matchingExchangeSize > 0) trades
      reconcileGroups scope exchangePositions groups

/-- `order` is the order in which the hash map of the groups is iterated. -/
def reconcileOneAccount (order : List TradeGroup → List TradeGroup) (scope : AccountScope) : Startup Unit := do
  let dbTrades ← ExceptT.mk (ask (.listOpenOrClosingByAccount scope.account.id))
  if dbTrades.isEmpty then return
  let exchangePositions ← fetchExchangePositions scope.name (collectDistinctPairs dbTrades)
  reconcileGroups scope exchangePositions (order (groupTradesForAggregateComparison dbTrades))

/-! ## The answers -/

/-- What the reconciliation reads and writes: the trades and the daily summaries. -/
structure StartupWorld where
  db : Db
  summaries : Summaries

/-- The unsettled trades of an account, newest entry first. -/
def listOpenOrClosingByAccount (db : Db) (accountId : Uuid) : List Trade :=
  ((db.trades.rows.filter fun r => r.accountId = accountId ∧ r.status.unsettled).map TradeRow.toTrade).insertionSort
    fun t u => u.entryAt ≤ t.entryAt

/-- Calls of the executor are answered from the database and the positions; what else the exchange, the
clocks and the price store answer is free. -/
def tradingHandler (positions : Pair → List ExchangePosition) : Prog.Handler Calls StartupWorld
  | w, .db q, r, w' => ∃ now db, q.answered now w.db r db ∧ w' = { w with db }
  | w, .api (.getPositions pair), .ok ps, w' => ps = positions pair ∧ w' = w
  | w, _, _, w' => w' = w

/-- What each call does with the database, when the exchange holds `positions`. -/
def startupHandler (positions : Pair → List ExchangePosition) : Prog.Handler StartupCalls StartupWorld
  | w, .trading c, r, w' => tradingHandler positions w c r w'
  | w, .listOpenOrClosingByAccount accountId, .ok trades, w' =>
    trades = listOpenOrClosingByAccount w.db accountId ∧ w' = w
  | w, .accountType accountId, .ok live, w' => live = (w.db.accounts.find? accountId).map TradingAccount.live ∧ w' = w
  | w, .upsertDailySummary key n m pnl, .ok (), w' =>
    w' = { w with summaries := upsertDailySummary key n m pnl w.summaries }
  | w, _, _, w' => w' = w

end AutoTrader
