import AutoTrader.Executor.Close

/-!
# Opening and closing trades

`Trader.execute` opens a trade for a signal and `Trader.closePosition` closes one. Both go to the
exchange first and to the database after it; a close holds the close lock of the trade meanwhile, and
gives it back when the exchange part failed.
-/

namespace AutoTrader

open Lib (Prog)
open Lib.Prog (Only Only.bind OnlyE.bind OnlyE.bindLift)
open Piece (lit arg)

/-- An amount in whole yen. -/
def truncateYen (amount : Decimal) : Decimal := Lib.truncate amount

/-- `POSITION_CUTOFF_CLOCK_SKEW_MARGIN_SECS`. -/
def positionCutoffClockSkewMarginSecs : Int := 1

namespace Trader

variable (t : Trader)

/-! ## Opening -/

/-- The leverage of the account, the quantity to order and the time positions are looked up from. -/
def prepareEntry (signal : Signal) : Exec (Decimal × Decimal × DateTime) := do
  let some account ← query (.getAccount t.accountId)
    | throw [lit "failed to load trading account \"", arg (toString t.accountId), lit "\": not found"]
  let balance := account.currentBalance
  let leverage := account.leverage
  if leverage ≤ 0 then
    throw [lit "invalid account \"", arg (toString t.accountId), lit "\": non-positive leverage ",
      arg (reprStr leverage), lit ", refusing to open trade"]
  let (bid, ask) ← t.latestBidAsk signal.pair
  let hintPrice := match signal.direction with
    | .long => ask
    | .short => bid
  let some quantity := t.positionSizer.calculateQuantity signal.pair balance hintPrice leverage
      signal.allocationPct signal.stopLossPct t.liquidationMarginLevel
    | throw [lit "invalid quantity for pair \"", arg signal.pair,
        lit "\": balance too small to open minimum order"]
  let now ← utcNow
  return (leverage, quantity, now - seconds positionCutoffClockSkewMarginSecs)

/-- What comes before the order asks for the account, a tick and the time. -/
theorem only_prepareEntry {ok : Call → Prop} {signal : Signal} (haccount : ok (.db (.getAccount t.accountId)))
    (htick : ok (.latestBidAsk t.exchange signal.pair)) (hnow : ok .utcNow) :
    Only ok (t.prepareEntry signal).run := by
  have hquery : Only ok (query (.getAccount t.accountId)).run := ⟨haccount, fun _ => trivial⟩
  refine OnlyE.bind hquery fun account => ?_
  rcases account with _ | account
  · trivial
  · dsimp only
    split
    · trivial
    refine OnlyE.bind (t.only_latestBidAsk htick) fun tick => ?_
    split
    · exact OnlyE.bindLift (Only.perform hnow) fun now => trivial
    · trivial

/-- The stop loss and the take profit of a fill. -/
def computeStopLevels (signal : Signal) (fillPrice : Decimal) : Decimal × Option Decimal :=
  let stopLoss := match signal.direction with
    | .long => fillPrice * (1 - signal.stopLossPct)
    | .short => fillPrice * (1 + signal.stopLossPct)
  let takeProfit := signal.takeProfitPct.map fun pct => match signal.direction with
    | .long => fillPrice * (1 + pct)
    | .short => fillPrice * (1 - pct)
  (stopLoss, takeProfit)

/-- The identifier of the position that an open made, where the exchange has them. -/
def resolveExchangePositionId (signal : Signal) (positionCutoff : DateTime) (actualQty : Decimal) :
    Prog Calls (Option String) :=
  if t.dryRun || !t.requiresClosePositionId then return none
  else resolvePositionIdWithRetry signal.pair positionCutoff (openingSide signal.direction) actualQty 3

theorem only_resolveExchangePositionId {ok : Call → Prop} {signal : Signal} {positionCutoff : DateTime}
    {actualQty : Decimal}
    (h : ok (.api (.resolvePositionId signal.pair positionCutoff (openingSide signal.direction) actualQty))) :
    Only ok (t.resolveExchangePositionId signal positionCutoff actualQty) := by
  simp only [resolveExchangePositionId]
  split
  · trivial
  · exact only_resolvePositionIdWithRetry h _

/-- The id of the protective stop order; `none` if the exchange refused it. -/
def placeProtectiveStopOrder (signal : Signal) (actualQty stopLoss : Decimal)
    (exchangePositionId : Option String) : Prog Calls (Option String) := do
  if t.dryRun then return none
  let closeSide := closingSide signal.direction
  let trigger := t.positionSizer.roundTriggerPrice signal.pair stopLoss signal.direction
  match ← api (.placeStopOrder signal.pair closeSide actualQty trigger exchangePositionId) with
  | .ok id => return some id
  | .error _ => return none

theorem only_placeProtectiveStopOrder {ok : Call → Prop} {signal : Signal} {actualQty stopLoss : Decimal}
    {pid : Option String} (h : ∀ side trigger, ok (.api (.placeStopOrder signal.pair side actualQty trigger pid))) :
    Only ok (t.placeProtectiveStopOrder signal actualQty stopLoss pid) := by
  simp only [placeProtectiveStopOrder]
  split
  · trivial
  · refine Only.bind (fun r => ?_) (only_api (h _ _))
    cases r <;> trivial

/-- `execute`: the open of a trade. -/
def execute (signal : Signal) : Exec Trade := do
  let (leverage, quantity, positionCutoff) ← t.prepareEntry signal
  let (fillPrice, actualQty, openCommission) ← t.fillOpen signal quantity
  let (stopLoss, takeProfit) := computeStopLevels signal fillPrice
  let entryAt ← utcNow
  let margin := truncateYen (fillPrice * actualQty / leverage)
  let exchangePositionId ← t.resolveExchangePositionId signal positionCutoff actualQty
  let stopOrderId ← t.placeProtectiveStopOrder signal actualQty stopLoss exchangePositionId
  let id ← newUuid
  let trade : Trade := {
    id, accountId := t.accountId, strategyName := signal.strategyName, pair := signal.pair
    exchange := t.exchange, direction := signal.direction, entryPrice := fillPrice, exitPrice := none
    stopLoss, takeProfit, quantity := actualQty, leverage, fees := openCommission, entryAt
    exitAt := none, pnlAmount := none, exitReason := none, status := .open
    maxHoldUntil := signal.maxHoldUntil, exchangePositionId, stopOrderId }
  query (.persistOpenTrade t.accountId trade margin)
  return trade

/-! ## Closing -/

/-- Takes the close lock: the trade as it was read with it, and whether the lock was stale. -/
def loadTradeForClose (uuid : Uuid) : Exec (Trade × Bool) := do
  let some lock ← query (.acquireCloseLock uuid t.accountId)
    | throw [lit "invalid trade \"", arg (toString uuid), lit ("\": not in 'open' state " ++
        "(already closed/closing or belongs to another account)")]
  return (lock.trade, lock.wasStaleRecovery)

/-- The exit fill; a failure gives the lock back, and a failure of that is only logged. -/
def closeAndReleaseLockOnError (uuid : Uuid) (trade : Trade) (wasStaleRecovery : Bool) :
    Exec (Decimal × Decimal × Bool) := do
  let exitFill : Exec (Decimal × Decimal × Bool) :=
    if !t.dryRun && wasStaleRecovery then t.fillCloseWithStaleRecovery trade
    else do
      let (price, commission) ← t.fillClose trade
      return (price, commission, false)
  match ← Prog.attempt exitFill with
  | .ok r => return r
  | .error e =>
    let _ ← Prog.attempt (query (.releaseCloseLock uuid))
    throw e

/-- The SFD of a live close, read before it; a dry run has none. -/
def liveSfdSnapshot (trade : Trade) : Prog Calls (Option Decimal) :=
  if t.dryRun then return none else some <$> snapshotLiveSfdBeforeClose trade

theorem reads_liveSfdSnapshot (trade : Trade) : Only Call.reads (t.liveSfdSnapshot trade) := by
  simp only [liveSfdSnapshot]
  split
  · trivial
  · refine Only.bind (fun _ => ?_) (reads_snapshotLiveSfdBeforeClose trade)
    trivial

theorem quiet_liveSfdSnapshot (trade : Trade) : Only Call.quiet (t.liveSfdSnapshot trade) :=
  (t.reads_liveSfdSnapshot trade).mono Call.quiet_of_reads

/-- The trade as it is closed. -/
def closedTrade (trade : Trade) (exitPrice closeCommission sfdAccrued : Decimal) (exitAt : DateTime)
    (pnlAmount : Decimal) (exitReason : ExitReason) : Trade :=
  { trade with
    exitPrice := some exitPrice, fees := trade.fees + closeCommission + sfdAccrued, exitAt := some exitAt
    pnlAmount := some pnlAmount, exitReason := some exitReason, status := .closed }

/-- The profit of a close. -/
def closePnl (trade : Trade) (exitPrice : Decimal) : Decimal :=
  let priceDiff := match trade.direction with
    | .long => exitPrice - trade.entryPrice
    | .short => trade.entryPrice - exitPrice
  truncateYen (priceDiff * trade.quantity)

/-- `close_position`: the close of a trade. -/
def closePosition (uuid : Uuid) (exitReason : ExitReason) : Exec Trade := do
  let (trade, wasStaleRecovery) ← t.loadTradeForClose uuid
  let liveSfdSnapshot ← t.liveSfdSnapshot trade
  let (exitPrice, closeCommission, _staleApproximate) ←
    t.closeAndReleaseLockOnError uuid trade wasStaleRecovery
  let sfdAccrued := liveSfdSnapshot.getD (sfdEstimate t.exchange exitPrice trade.quantity)
  let pnlAmount := closePnl trade exitPrice
  let exitAt ← utcNow
  let closed := closedTrade trade exitPrice closeCommission sfdAccrued exitAt pnlAmount exitReason
  let margin := truncateYen (trade.entryPrice * trade.quantity / trade.leverage)
  query (.persistClosedTrade t.accountId closed margin pnlAmount exitPrice exitAt exitReason)
  return closed

/-- The open trades of the account. -/
def openPositions : Exec (List Position) := do
  let trades ← query (.getOpenTradesByAccount t.accountId)
  return trades.map Position.mk

end Trader

end AutoTrader
