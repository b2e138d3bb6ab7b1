import AutoTrader.Executor.Api

/-!
# Filling an open order

`Trader.fillOpen` sends the order and reads its executions; when polling fails it reconciles with the
exchange, and what cannot be reconciled ends in `cleanupUnfilledOrder`. The error texts are kept piece
by piece, for what they tell the operator is what is proved of them.
-/

namespace AutoTrader

open Lib (Prog)
open Lib.Prog (Only Only.bind OnlyE.bind OnlyE.bindLift OnlyE.attempt)
open Piece (lit arg)

/-- A trader of one account on one exchange. -/
structure Trader where
  exchange : Exchange
  accountId : Uuid
  /-- Whether a close order on its exchange must name the position it closes. -/
  requiresClosePositionId : Bool
  positionSizer : PositionSizer
  liquidationMarginLevel : Decimal
  dryRun : Bool

/-- The side of an order that opens. -/
def openingSide : Direction → Side
  | .long => .buy
  | .short => .sell

/-- The side of an order that closes. -/
def closingSide : Direction → Side
  | .long => .sell
  | .short => .buy

/-! ## Commission and SFD estimates -/

/-- The two actions that an estimate is for. -/
inductive CommissionAction where
  | «open»
  | close

/-- Zero for every exchange. -/
def commissionEstimate (_action : CommissionAction) (exchange : Exchange) (_fillPrice _qty : Decimal) : Decimal :=
  match exchange with
  | .bitflyerCfd => 0
  | .gmoFx => 0
  | .oanda => 0

/-- Zero for every exchange. -/
def sfdEstimate (exchange : Exchange) (_fillPrice _qty : Decimal) : Decimal :=
  match exchange with
  | .bitflyerCfd => 0
  | .gmoFx => 0
  | .oanda => 0

/-! ## Executions -/

/-- The average price, the total size and the total fee of the fills. -/
def weightedAvgFills (fills : List (Decimal × Decimal × Decimal)) :
    Except Error (Decimal × Decimal × Decimal) :=
  let (totalSize, totalNotional, totalFee) := fills.foldl
    (fun (s, n, f) (price, size, fee) => (s + size, n + price * size, f + fee)) (0, 0, 0)
  if totalSize = 0 then .error [lit "invalid fills: total size is zero"]
  else .ok (totalNotional / totalSize, totalSize, totalFee)

/-- The mean price, the size and the commission of executions. -/
def aggregateExecutions (execs : List Execution) : Except Error (Decimal × Decimal × Decimal) :=
  match weightedAvgFills (execs.map fun e => (e.price, e.size, e.commission)) with
  | .ok r => .ok r
  | .error e => .error ([lit "failed to aggregate ", arg (toString execs.length), lit " executions: "] ++ e)

/-- The size and the fee of an aggregate are the totals of the executions. -/
theorem aggregateExecutions_totals {execs : List Execution} {fill : Decimal × Decimal × Decimal}
    (h : aggregateExecutions execs = .ok fill) :
    fill.2.1 = (execs.map Execution.size).sum ∧ fill.2.2 = (execs.map Execution.commission).sum := by
  have hfold : ∀ (fills : List (Decimal × Decimal × Decimal)) (s n f : Decimal),
      let totals := fills.foldl (fun (s, n, f) (price, size, fee) => (s + size, n + price * size, f + fee)) (s, n, f)
      totals.1 = s + (fills.map fun fill => fill.2.1).sum ∧ totals.2.2 = f + (fills.map fun fill => fill.2.2).sum := by
    intro fills
    induction fills with
    | nil => intro s n f; simp
    | cons x xs ih =>
      intro s n f
      obtain ⟨hs, hf⟩ := ih (s + x.2.1) (n + x.1 * x.2.1) (f + x.2.2)
      rw [List.map_cons, List.sum_cons, List.map_cons, List.sum_cons, ← add_assoc, ← add_assoc]
      exact ⟨hs, hf⟩
  simp only [aggregateExecutions, weightedAvgFills] at h
  split at h
  · rename_i r hr
    cases h
    split at hr
    · cases hr
    · cases hr
      obtain ⟨hs, hf⟩ := hfold (execs.map fun e => (e.price, e.size, e.commission)) 0 0 0
      rw [zero_add, List.map_map] at hs hf
      exact ⟨hs, hf⟩
  · cases h

namespace Trader

variable (t : Trader)

/-- The latest bid and ask, or an error where there is none. -/
def latestBidAsk (pair : Pair) : Exec (Decimal × Decimal) := do
  let some tick ← latestTick t.exchange pair
    | throw [lit "failed to get bid/ask for pair \"", arg pair, lit "\": no price available"]
  return tick

theorem only_latestBidAsk {ok : Call → Prop} {pair : Pair} (h : ok (.latestBidAsk t.exchange pair)) :
    Only ok (t.latestBidAsk pair).run := by
  refine OnlyE.bindLift (only_latestTick h) fun tick => ?_
  cases tick <;> trivial

theorem reads_latestBidAsk (pair : Pair) : Only Call.reads (t.latestBidAsk pair).run := t.only_latestBidAsk trivial

theorem quiet_latestBidAsk (pair : Pair) : Only Call.quiet (t.latestBidAsk pair).run := t.only_latestBidAsk trivial

/-- The passes of the polling loop that begin before its timeout. -/
def pollExecutionsLoop (acceptanceId : String) (pairStr : Pair) : Nat → Exec (Decimal × Decimal × Decimal)
  | 0 => throw [lit "failed to poll executions: timed out after ", arg "timeout"]
  | n + 1 => do
    let execs ← apiOrThrow (.getExecutions pairStr acceptanceId)
    if execs.isEmpty then pollExecutionsLoop acceptanceId pairStr n
    else
      match aggregateExecutions execs with
      | .ok outcome => return outcome
      | .error _ => pollExecutionsLoop acceptanceId pairStr n

/-- The executions of an order are polled until the deadline. -/
def pollExecutions (acceptanceId : String) (pairStr : Pair) : Exec (Decimal × Decimal × Decimal) := do
  let passes ← pollPasses
  pollExecutionsLoop acceptanceId pairStr passes

theorem reads_pollExecutionsLoop (acceptanceId : String) (pair : Pair) :
    ∀ n, Only Call.reads (pollExecutionsLoop acceptanceId pair n).run
  | 0 => trivial
  | n + 1 => by
    refine OnlyE.bind (only_apiOrThrow trivial) fun execs => ?_
    split
    · exact reads_pollExecutionsLoop acceptanceId pair n
    · split
      · trivial
      · exact reads_pollExecutionsLoop acceptanceId pair n

theorem reads_pollExecutions (acceptanceId : String) (pair : Pair) :
    Only Call.reads (pollExecutions acceptanceId pair).run :=
  OnlyE.bindLift reads_pollPasses fun n => reads_pollExecutionsLoop acceptanceId pair n

theorem quiet_pollExecutions (acceptanceId : String) (pair : Pair) :
    Only Call.quiet (pollExecutions acceptanceId pair).run :=
  (reads_pollExecutions acceptanceId pair).mono Call.quiet_of_reads

/-- Looks what became of an order without known executions and cancels it if it may still be filled. -/
def cleanupUnfilledOrder (pair : Pair) (orderId : String) (context : Error) : Prog Calls Error := do
  match ← api (.getChildOrders pair orderId) with
  | .error e =>
    return context ++ [lit ": failed to get child orders for \"", arg orderId, lit "\": ", arg e,
      lit "; may be orphan"]
  | .ok orders =>
    let state : Option ChildOrderState := orders.head?.map ChildOrder.childOrderState
    match state with
    | some .completed =>
      return context ++ [lit ": invalid order \"", arg orderId,
        lit "\": state=Completed but fill details could not be aggregated; manual reconciliation required"]
    | some .canceled | some .expired | some .rejected =>
      return context ++ [lit ": order \"", arg orderId, lit "\" not filled: state=", arg (reprStr state),
        lit ", no cleanup needed"]
    | _ =>
      match ← api (.cancelChildOrder pair orderId) with
      | .ok _ =>
        return context ++ [lit ": order \"", arg orderId, lit "\" state=", arg (reprStr state),
          lit ", cancel requested"]
      | .error cancelErr =>
        return context ++ [lit ": failed to cancel order \"", arg orderId, lit "\" (state=",
          arg (reprStr state), lit "): ", arg cancelErr, lit "; manual intervention required"]

theorem quiet_cleanupUnfilledOrder (pair : Pair) (orderId : String) (context : Error) :
    Only Call.quiet (cleanupUnfilledOrder pair orderId context) := by
  refine Only.bind (fun r => ?_) (quiet_api _)
  cases r with
  | error e => trivial
  | ok orders =>
    dsimp only
    split <;> try trivial
    refine Only.bind (fun r => ?_) (quiet_api _)
    cases r <;> trivial

/-- The fill of executions that were found late. -/
def finalizeReconciledFill (pair : Pair) (orderId : String) (execs : List Execution) :
    Exec (Decimal × Decimal × Decimal) := do
  match aggregateExecutions execs with
  | .ok r => return r
  | .error aggErr =>
    let cleanupErr ← cleanupUnfilledOrder pair orderId
      ([lit "failed to aggregate executions for order \"", arg orderId, lit "\": "] ++ aggErr)
    throw ([lit "failed to open order \"", arg orderId, lit "\": aggregate error: "] ++ aggErr ++
      [lit "; cleanup: "] ++ cleanupErr)

theorem quiet_finalizeReconciledFill (pair : Pair) (orderId : String) (execs : List Execution) :
    Only Call.quiet (finalizeReconciledFill pair orderId execs).run := by
  simp only [finalizeReconciledFill]
  split
  · trivial
  · exact OnlyE.bindLift (quiet_cleanupUnfilledOrder _ _ _) fun _ => trivial

/-- The fill that the record of an order shows, or its cleanup. -/
def reconcileFromChildOrder (pair : Pair) (orderId : String) (pollErr : Error) (order : ChildOrder) :
    Exec (Decimal × Decimal × Decimal) := do
  match order.childOrderState with
  | .completed =>
    let fallback : Exec (Decimal × Decimal × Decimal) :=
      if 0 < order.averagePrice && 0 < order.executedSize then
        return (order.averagePrice, order.executedSize, 0)
      else
        throw [lit "invalid order \"", arg orderId, lit ("\": state=Completed but no execution data available; " ++
          "orphan — manual reconciliation required")]
    match ← api (.getExecutions pair orderId) with
    | .ok execs =>
      if execs.isEmpty then fallback
      else
        match aggregateExecutions execs with
        | .ok r => return r
        | .error e => throw e
    | .error _ => fallback
  | .active =>
    let cleanupErr ← cleanupUnfilledOrder pair orderId [lit "invalid order: no executions and still active"]
    throw ([lit "failed to open order \"", arg orderId, lit "\": "] ++ pollErr ++
      [lit "; reconciliation found no executions; cleanup: "] ++ cleanupErr)
  | state =>
    throw [lit "invalid order \"", arg orderId, lit "\": not filled (state=", arg (reprStr state), lit ")"]

theorem quiet_reconcileFromChildOrder (pair : Pair) (orderId : String) (pollErr : Error) (order : ChildOrder) :
    Only Call.quiet (reconcileFromChildOrder pair orderId pollErr order).run := by
  simp only [reconcileFromChildOrder]
  split
  · refine OnlyE.bindLift (quiet_api _) fun r => ?_
    cases r with
    | ok execs => dsimp only; repeat' (first | trivial | split)
    | error e => dsimp only; repeat' (first | trivial | split)
  · exact OnlyE.bindLift (quiet_cleanupUnfilledOrder _ _ _) fun _ => trivial
  · trivial

/-- An order without executions is looked up. -/
def reconcileViaChildOrderLookup (signal : Signal) (orderId : String) (pollErr : Error) :
    Exec (Decimal × Decimal × Decimal) := do
  match ← api (.getChildOrders signal.pair orderId) with
  | .ok (order :: _) => reconcileFromChildOrder signal.pair orderId pollErr order
  | .ok [] =>
    let cleanupErr ← cleanupUnfilledOrder signal.pair orderId
      [lit "invalid order: no executions and no order record found"]
    throw ([lit "failed to open order \"", arg orderId, lit "\": "] ++ pollErr ++
      [lit "; reconciliation found no executions or order; cleanup: "] ++ cleanupErr)
  | .error e =>
    let cleanupErr ← cleanupUnfilledOrder signal.pair orderId
      [lit "failed to get child orders for \"", arg orderId, lit "\": ", arg e]
    throw ([lit "failed to open order \"", arg orderId, lit "\": "] ++ pollErr ++
      [lit "; failed to get child orders: ", arg e, lit "; cleanup: "] ++ cleanupErr)

theorem quiet_reconcileViaChildOrderLookup (signal : Signal) (orderId : String) (pollErr : Error) :
    Only Call.quiet (reconcileViaChildOrderLookup signal orderId pollErr).run := by
  refine OnlyE.bindLift (quiet_api _) fun r => ?_
  cases r with
  | error e => exact OnlyE.bindLift (quiet_cleanupUnfilledOrder _ _ _) fun _ => trivial
  | ok orders =>
    cases orders with
    | nil => exact OnlyE.bindLift (quiet_cleanupUnfilledOrder _ _ _) fun _ => trivial
    | cons order _ => exact quiet_reconcileFromChildOrder _ _ _ _

/-- An open order whose poll failed is reconciled with the exchange. -/
def reconcileUnpolledOpen (signal : Signal) (orderId : String) (pollErr : Error) :
    Exec (Decimal × Decimal × Decimal) := do
  match ← api (.getExecutions signal.pair orderId) with
  | .ok execs =>
    if execs.isEmpty then reconcileViaChildOrderLookup signal orderId pollErr
    else finalizeReconciledFill signal.pair orderId execs
  | .error e =>
    let cleanupErr ← cleanupUnfilledOrder signal.pair orderId
      [lit "failed to get executions for \"", arg orderId, lit "\": ", arg e]
    throw ([lit "failed to open order \"", arg orderId, lit "\": "] ++ pollErr ++
      [lit "; failed to get executions: ", arg e, lit "; cleanup: "] ++ cleanupErr)

theorem quiet_reconcileUnpolledOpen (signal : Signal) (orderId : String) (pollErr : Error) :
    Only Call.quiet (reconcileUnpolledOpen signal orderId pollErr).run := by
  refine OnlyE.bindLift (quiet_api _) fun r => ?_
  cases r with
  | error e => exact OnlyE.bindLift (quiet_cleanupUnfilledOrder _ _ _) fun _ => trivial
  | ok execs =>
    dsimp only
    split
    · exact quiet_reconcileViaChildOrderLookup _ _ _
    · exact quiet_finalizeReconciledFill _ _ _

/-- The market order of a signal. -/
def signalToSendChildOrder (signal : Signal) (quantity : Decimal) : SendChildOrderRequest where
  productCode := signal.pair
  childOrderType := .market
  side := openingSide signal.direction
  size := quantity
  price := none
  minuteToExpire := none
  timeInForce := none
  closePositionId := none

/-- A live open: the order is sent, and its fill is polled or reconciled. -/
def fillOpenLive (signal : Signal) (quantity : Decimal) : Exec (Decimal × Decimal × Decimal) := do
  let req := signalToSendChildOrder signal quantity
  let orderId ← apiOrThrow (.sendChildOrder req)
  match ← Prog.attempt (pollExecutions orderId signal.pair) with
  | .ok r => return r
  | .error pollErr => reconcileUnpolledOpen signal orderId pollErr

/-- An open: a dry one is filled at the latest tick. -/
def fillOpen (signal : Signal) (quantity : Decimal) : Exec (Decimal × Decimal × Decimal) := do
  if t.dryRun then
    let (bid, ask) ← t.latestBidAsk signal.pair
    let price := match signal.direction with
      | .long => ask
      | .short => bid
    return (price, quantity, commissionEstimate .open t.exchange price quantity)
  else fillOpenLive signal quantity

theorem quiet_fillOpen (signal : Signal) (quantity : Decimal) : Only Call.quiet (t.fillOpen signal quantity).run := by
  simp only [fillOpen]
  split
  · exact OnlyE.bind (t.quiet_latestBidAsk _) fun _ => trivial
  · refine OnlyE.bind (quiet_apiOrThrow _) fun orderId => ?_
    refine OnlyE.bind (OnlyE.attempt (quiet_pollExecutions _ _)) fun r => ?_
    cases r with
    | ok r => trivial
    | error e => exact quiet_reconcileUnpolledOpen _ _ _

/-- Up to three tries, each of which may find the position. -/
def resolvePositionIdWithRetry (productCode : Pair) (after : DateTime) (expectedSide : Side)
    (expectedSize : Decimal) : Nat → Prog Calls (Option String)
  | 0 => return none
  | n + 1 => do
    match ← api (.resolvePositionId productCode after expectedSide expectedSize) with
    | .ok (some pid) => return some pid
    | .ok none | .error _ => resolvePositionIdWithRetry productCode after expectedSide expectedSize n

theorem only_resolvePositionIdWithRetry {ok : Call → Prop} {productCode : Pair} {after : DateTime} {side : Side}
    {size : Decimal} (h : ok (.api (.resolvePositionId productCode after side size))) :
    ∀ n, Only ok (resolvePositionIdWithRetry productCode after side size n)
  | 0 => trivial
  | n + 1 => by
    refine Only.bind (fun r => ?_) (only_api h)
    split
    · trivial
    · exact only_resolvePositionIdWithRetry h n
    · exact only_resolvePositionIdWithRetry h n

end Trader

end AutoTrader
