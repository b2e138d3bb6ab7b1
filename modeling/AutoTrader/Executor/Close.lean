import AutoTrader.Executor.Open

/-!
# Filling a close order

`Trader.fillClose` closes the position of a trade: first it makes sure of the protective stop
(`stopGuardBeforeClose`), then it sends a market order. After a lock that was taken over from a stale
attempt, `fillCloseWithStaleRecovery` asks the exchange what is left of the position first.
-/

namespace AutoTrader

open Lib (Prog)
open Lib.Prog (Only Only.bind OnlyE.bind OnlyE.bindLift)
open Piece (lit arg)

/-- The white space that `trim` removes. -/
def isWhitespace (c : Char) : Bool :=
  let n := c.toNat
  (9 ≤ n && n ≤ 13) || n == 0x20 || n == 0x85 || n == 0xA0 || n == 0x1680 || (0x2000 ≤ n && n ≤ 0x200A) ||
    n == 0x2028 || n == 0x2029 || n == 0x202F || n == 0x205F || n == 0x3000

/-- `trim`. -/
def trimChars (cs : List Char) : List Char :=
  ((cs.dropWhile isWhitespace).reverse.dropWhile isWhitespace).reverse

/-- The direction of a position's side. -/
def exchangeSideToDirection (side : String) : Option Direction :=
  let upper := (trimChars side.toList).map Char.toUpper
  if upper = ['B', 'U', 'Y'] then some .long
  else if upper = ['S', 'E', 'L', 'L'] then some .short
  else none

namespace Trader

variable (t : Trader)

/-- Makes sure that the stop order will not fill beside the close order; the fill of a stop that was
executed already. -/
def stopGuardBeforeClose (trade : Trade) : Exec (Option (Decimal × Decimal)) := do
  let some stopId := trade.stopOrderId | return none
  match ← api (.stopOrderStatus trade.pair stopId) with
  | .ok (.executed price commission) => return some (price, commission)
  | .ok .active =>
    match ← api (.cancelStopOrder trade.pair stopId) with
    | .ok _ => return none
    | .error cancelErr =>
      match ← api (.stopOrderStatus trade.pair stopId) with
      | .ok (.executed price commission) => return some (price, commission)
      | .ok .gone => return none
      | _ =>
        throw [lit "failed to cancel stop order \"", arg stopId, lit "\": ", arg cancelErr,
          lit "; status still active/unclear; aborting close to avoid double-close"]
  | .ok .gone => return none
  | .error e =>
    throw [lit "failed to get stop order status for \"", arg stopId, lit "\": ", arg e, lit "; aborting close"]

theorem quiet_stopGuardBeforeClose (trade : Trade) : Only Call.quiet (stopGuardBeforeClose trade).run := by
  simp only [stopGuardBeforeClose]
  split
  · refine OnlyE.bindLift (quiet_api _) fun r => ?_
    split <;> try trivial
    refine OnlyE.bindLift (quiet_api _) fun r => ?_
    split
    · trivial
    · refine OnlyE.bindLift (quiet_api _) fun r => ?_
      split <;> trivial
  · trivial

/-- A trade on an exchange with position identifiers must have one. -/
def ensureClosePositionIdPresent (trade : Trade) : Exec Unit :=
  if t.requiresClosePositionId && trade.exchangePositionId.isNone then
    throw [lit "invalid trade \"", arg (toString trade.id), lit "\": exchange_position_id is required by ",
      arg (reprStr t.exchange), lit " but missing (closing without it would open an opposite position)"]
  else return ()

theorem quiet_ensureClosePositionIdPresent (trade : Trade) :
    Only Call.quiet (t.ensureClosePositionIdPresent trade).run := by
  simp only [ensureClosePositionIdPresent]
  split <;> trivial

/-- The market order that closes `size` of a trade. -/
def closeOrderRequest (trade : Trade) (size : Decimal) : SendChildOrderRequest where
  productCode := trade.pair
  childOrderType := .market
  side := closingSide trade.direction
  size := size
  price := none
  minuteToExpire := none
  timeInForce := none
  closePositionId := trade.exchangePositionId

/-- A live close of `size`: the stop order is guarded, the order sent and its fill polled. -/
def fillCloseLive (trade : Trade) (size : Decimal) : Exec (Decimal × Decimal) := do
  if let some fill ← stopGuardBeforeClose trade then return fill
  t.ensureClosePositionIdPresent trade
  let req := closeOrderRequest trade size
  let acceptanceId ← apiOrThrow (.sendChildOrder req)
  let (price, _qty, commission) ← pollExecutions acceptanceId trade.pair
  return (price, commission)

theorem quiet_fillCloseLive (trade : Trade) (size : Decimal) : Only Call.quiet (t.fillCloseLive trade size).run := by
  refine OnlyE.bind (quiet_stopGuardBeforeClose trade) fun fill => ?_
  cases fill with
  | some fill => trivial
  | none =>
    refine OnlyE.bind (t.quiet_ensureClosePositionIdPresent trade) fun _ => ?_
    refine OnlyE.bind (quiet_apiOrThrow _) fun acceptanceId => ?_
    exact OnlyE.bind (quiet_pollExecutions _ _) fun _ => trivial

/-- The close of a trade: a dry one is filled at the latest tick. -/
def fillClose (trade : Trade) : Exec (Decimal × Decimal) := do
  if t.dryRun then
    let (bid, ask) ← t.latestBidAsk trade.pair
    let price := match trade.direction with
      | .long => bid
      | .short => ask
    return (price, commissionEstimate .close t.exchange price trade.quantity)
  else t.fillCloseLive trade trade.quantity

theorem quiet_fillClose (trade : Trade) : Only Call.quiet (t.fillClose trade).run := by
  simp only [fillClose]
  split
  · exact OnlyE.bind (t.quiet_latestBidAsk _) fun _ => trivial
  · exact t.quiet_fillCloseLive trade _

/-- The total size of the positions on the side of the trade, and whether the product has any. -/
def sumPositions (trade : Trade) : List ExchangePosition → Decimal × Bool → Except Error (Decimal × Bool)
  | [], acc => .ok acc
  | p :: ps, (total, _) =>
    match exchangeSideToDirection p.side with
    | some d =>
      if d = trade.direction then sumPositions trade ps (total + p.size, true)
      else .error [lit "invalid position for trade \"", arg (toString trade.id), lit "\": opposite side ",
        arg (reprStr d), lit " vs ", arg (reprStr trade.direction), lit " (size=", arg (reprStr p.size),
        lit "); refusing auto-recover, manual intervention required"]
    | none => .error [lit "unsupported side for trade \"", arg (toString trade.id), lit "\" on ",
        arg p.productCode, lit ": \"", arg p.side, lit "\"; manual intervention required"]

/-- The size that the exchange still holds of a trade. -/
def sumExchangePositionSize (trade : Trade) : Exec (Decimal × Bool) := do
  let positions ← apiOrThrow (.getPositions trade.pair)
  let relevant := positions.filter fun p => p.productCode == trade.pair && decide (0 < p.size)
  match sumPositions trade relevant (0, false) with
  | .ok r => return r
  | .error e => throw e

theorem only_sumExchangePositionSize {ok : Call → Prop} {trade : Trade} (h : ok (.api (.getPositions trade.pair))) :
    Only ok (sumExchangePositionSize trade).run := by
  refine OnlyE.bind (only_apiOrThrow h) fun positions => ?_
  dsimp only
  split <;> trivial

/-- The mid of the latest tick, or the entry price when there is none. -/
def resolveStaleExitPrice (trade : Trade) : Exec Decimal := do
  match ← latestTick t.exchange trade.pair with
  | some (bid, ask) => return (bid + ask) / 2
  | none => return trade.entryPrice

theorem only_resolveStaleExitPrice {ok : Call → Prop} {trade : Trade}
    (h : ok (.latestBidAsk t.exchange trade.pair)) : Only ok (t.resolveStaleExitPrice trade).run := by
  refine OnlyE.bindLift (only_latestTick h) fun tick => ?_
  cases tick <;> trivial

/-- The close of a part of a trade. -/
def fillCloseSize (trade : Trade) (size : Decimal) : Exec (Decimal × Decimal) :=
  if t.dryRun then t.fillClose trade else t.fillCloseLive trade size

/-- Nothing is left on the exchange: only the price is resolved. -/
def recoverExitWhenAlreadyClosed (trade : Trade) : Exec (Decimal × Decimal × Bool) := do
  let price ← t.resolveStaleExitPrice trade
  return (price, 0, true)

/-- Everything is left: the trade is closed as usual. -/
def recoverExitWhenFullSize (trade : Trade) : Exec (Decimal × Decimal × Bool) := do
  let (price, commission) ← t.fillClose trade
  return (price, commission, false)

/-- A part is left: only that part is closed. -/
def recoverExitWhenPartialSize (trade : Trade) (totalExchangeSize : Decimal) :
    Exec (Decimal × Decimal × Bool) := do
  let (price, commission) ← t.fillCloseSize trade totalExchangeSize
  return (price, commission, true)

/-- The close of a trade whose lock was stale. -/
def fillCloseWithStaleRecovery (trade : Trade) : Exec (Decimal × Decimal × Bool) := do
  let (totalExchangeSize, hasAnyForProduct) ← sumExchangePositionSize trade
  if !hasAnyForProduct then t.recoverExitWhenAlreadyClosed trade
  else if totalExchangeSize = trade.quantity then t.recoverExitWhenFullSize trade
  else if totalExchangeSize < trade.quantity then t.recoverExitWhenPartialSize trade totalExchangeSize
  else
    throw [lit "invalid position for trade \"", arg (toString trade.id), lit "\": exchange size ",
      arg (reprStr totalExchangeSize), lit " exceeds trade quantity ", arg (reprStr trade.quantity),
      lit "; refusing to close to avoid oscillation, manual intervention required"]

theorem quiet_fillCloseWithStaleRecovery (trade : Trade) :
    Only Call.quiet (t.fillCloseWithStaleRecovery trade).run := by
  refine OnlyE.bind (only_sumExchangePositionSize trivial) fun r => ?_
  obtain ⟨total, has⟩ := r
  dsimp only
  split
  · exact OnlyE.bind (t.only_resolveStaleExitPrice trivial) fun _ => trivial
  · split
    · exact OnlyE.bind (t.quiet_fillClose trade) fun _ => trivial
    · split
      · refine OnlyE.bind ?_ fun _ => trivial
        simp only [fillCloseSize]
        split
        · exact t.quiet_fillClose trade
        · exact t.quiet_fillCloseLive trade total
      · trivial

/-- Zero when the exchange does not answer, so that the close is not held up. -/
def snapshotLiveSfdBeforeClose (trade : Trade) : Prog Calls Decimal := do
  match ← api (.fetchCloseSfd trade.pair) with
  | .ok v => return v
  | .error _ => return 0

theorem reads_snapshotLiveSfdBeforeClose (trade : Trade) :
    Only Call.reads (snapshotLiveSfdBeforeClose trade) := by
  refine Only.bind (fun r => ?_) (only_api trivial)
  cases r <;> trivial

end Trader

end AutoTrader
