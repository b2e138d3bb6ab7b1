import AutoTrader.Executor.OrderExecutor

/-!
# The tasks of the running program

Every task that writes trades, as one program: opening and closing a trade, charging a fee,
reconciling a trade, giving a lock back. A run of the system is a run of any number of them, each
thread number one `Actor`.

The database calls of each are the ones the protocol `settling` allows, in that order; what a task
asks the exchange and the clocks in between is quiet (`Call.quiet`).
-/

namespace AutoTrader

open Lib (Prog Protocol)
open Lib.Prog (Meets MeetsE Only OnlyE.bind)
open Piece (lit arg)

/-- `close_trade_reconciled`: the trade is read, then settled in a transaction. -/
def closeTradeReconciled (tradeId : Uuid) (exitPrice pnlAmount : Decimal) (exitReason : ExitReason) : Exec Unit := do
  let exitAt ← utcNow
  let some trade ← query (.selectUnsettled tradeId)
    | throw [lit "failed to close trade: not found or already closed"]
  let margin := OpenPosition.requiredMargin ⟨trade.direction, trade.entryPrice, trade.entryPrice, trade.quantity,
    trade.leverage⟩
  query (.closeTradeReconciled tradeId trade.accountId exitPrice exitAt pnlAmount exitReason margin)

/-- The tasks that write to trades and accounts. -/
inductive Actor where
  | execute (t : Trader) (signal : Signal)
  | closePosition (t : Trader) (uuid : Uuid) (exitReason : ExitReason)
  | applyOvernightFee (accountId tradeId : Uuid) (feeAmount : Decimal)
  | applySfdFee (accountId tradeId : Uuid) (feeAmount : Decimal) (occurredAt : DateTime)
  | applySwapFee (accountId tradeId : Uuid) (feeAmount : Decimal) (occurredAt : DateTime)
  | addFees (id : Uuid) (feeDelta : Decimal)
  | closeTradeReconciled (tradeId : Uuid) (exitPrice pnlAmount : Decimal) (exitReason : ExitReason)
  | releaseCloseLock (tradeId : Uuid)

/-- What a task that succeeded has done. -/
inductive Outcome where
  | opened (trade : Trade)
  | closed (trade : Trade)
  | finished

namespace Actor

/-- The program of a task. -/
def prog : Actor → Exec Outcome
  | execute t signal => Outcome.opened <$> t.execute signal
  | closePosition t uuid exitReason => Outcome.closed <$> t.closePosition uuid exitReason
  | applyOvernightFee accountId tradeId feeAmount =>
    (fun _ => .finished) <$> query (.applyOvernightFee accountId tradeId feeAmount)
  | applySfdFee accountId tradeId feeAmount occurredAt =>
    (fun _ => .finished) <$> query (.applySfdFee accountId tradeId feeAmount occurredAt)
  | applySwapFee accountId tradeId feeAmount occurredAt =>
    (fun _ => .finished) <$> query (.applySwapFee accountId tradeId feeAmount occurredAt)
  | addFees id feeDelta => (fun _ => .finished) <$> query (.addFees id feeDelta)
  | closeTradeReconciled tradeId exitPrice pnlAmount exitReason =>
    (fun _ => .finished) <$> AutoTrader.closeTradeReconciled tradeId exitPrice pnlAmount exitReason
  | releaseCloseLock tradeId => (fun _ => .finished) <$> query (.releaseCloseLock tradeId)

end Actor

/-! ## What a task does to the database -/

/-- How far a task is with its database work. -/
inductive Stage where
  | idle
  /-- A close attempt that holds the lock, with the trade as it was read. -/
  | holding (trade : Trade)
  /-- A reconciliation that has read the trade. -/
  | selected (trade : Trade)
  /-- The transaction that opens the trade has committed. -/
  | opened (trade : Trade)
  /-- The transaction that closes the trade has committed. -/
  | closed (trade : Trade)
  | over

/-- The queries a task may make at a stage. -/
inductive Actor.MayAsk : Actor → Stage → Query → Prop
  | account {t : Trader} {signal : Signal} : MayAsk (.execute t signal) .idle (.getAccount t.accountId)
  | openTrade {t : Trader} {signal : Signal} {trade : Trade} : trade.accountId = t.accountId →
      trade.strategyName = signal.strategyName → trade.pair = signal.pair → trade.status = .open →
      trade.pnlAmount = none → MayAsk (.execute t signal) .idle (.persistOpenTrade t.accountId trade trade.margin)
  | lock {t : Trader} {uuid : Uuid} {exitReason : ExitReason} :
      MayAsk (.closePosition t uuid exitReason) .idle (.acquireCloseLock uuid t.accountId)
  | unlock {t : Trader} {uuid : Uuid} {exitReason : ExitReason} {trade : Trade} :
      MayAsk (.closePosition t uuid exitReason) (.holding trade) (.releaseCloseLock uuid)
  | close {t : Trader} {uuid : Uuid} {exitReason : ExitReason} {trade : Trade} (price commission sfd : Decimal)
      (exitAt : DateTime) : MayAsk (.closePosition t uuid exitReason) (.holding trade)
        (.persistClosedTrade t.accountId
          (Trader.closedTrade trade price commission sfd exitAt (Trader.closePnl trade price) exitReason)
          trade.margin (Trader.closePnl trade price) price exitAt exitReason)
  | overnightFee {accountId tradeId : Uuid} {fee : Decimal} :
      MayAsk (.applyOvernightFee accountId tradeId fee) .idle (.applyOvernightFee accountId tradeId fee)
  | sfdFee {accountId tradeId : Uuid} {fee : Decimal} {at' : DateTime} :
      MayAsk (.applySfdFee accountId tradeId fee at') .idle (.applySfdFee accountId tradeId fee at')
  | swapFee {accountId tradeId : Uuid} {fee : Decimal} {at' : DateTime} :
      MayAsk (.applySwapFee accountId tradeId fee at') .idle (.applySwapFee accountId tradeId fee at')
  | addFees {id : Uuid} {delta : Decimal} : MayAsk (.addFees id delta) .idle (.addFees id delta)
  | select {tradeId : Uuid} {price pnl : Decimal} {reason : ExitReason} :
      MayAsk (.closeTradeReconciled tradeId price pnl reason) .idle (.selectUnsettled tradeId)
  | reconcile {tradeId : Uuid} {price pnl : Decimal} {reason : ExitReason} {trade : Trade} (exitAt : DateTime) :
      MayAsk (.closeTradeReconciled tradeId price pnl reason) (.selected trade)
        (.closeTradeReconciled tradeId trade.accountId price exitAt pnl reason trade.margin)
  | release {tradeId : Uuid} : MayAsk (.releaseCloseLock tradeId) .idle (.releaseCloseLock tradeId)

/-- The stage after a query and its answer. -/
def Stage.after : Stage → (q : Query) → Except Error q.Ok → Stage
  | .idle, .getAccount _, _ => .idle
  | .idle, .acquireCloseLock _ _, .ok (some lock) => .holding lock.trade
  | .idle, .selectUnsettled _, .ok (some trade) => .selected trade
  | _, .persistOpenTrade _ trade _, .ok _ => .opened trade
  | _, .persistClosedTrade _ trade _ _ _ _ _, .ok _ => .closed trade
  | _, _, _ => .over

/-- The database side of every task: who asks what, and when. -/
def settling : Protocol Calls (Actor × Stage) where
  allowed p c := match c with
    | .db q => p.1.MayAsk p.2 q
    | _ => True
  next p c r := match c, r with
    | .db q, r => (p.1, p.2.after q r)
    | _, _ => p

/-- A task that returned a trade has persisted it, and one that ended otherwise holds no lock. -/
def Actor.ended (p : Actor × Stage) : Except Error Outcome → Prop
  | .ok (.opened trade) => p.2 = .opened trade
  | .ok (.closed trade) => p.2 = .closed trade
  | .ok .finished | .error _ => ∀ trade, p.2 ≠ .holding trade

theorem settling_quiet {p : Actor × Stage} (c : Call) (hc : c.quiet) :
    settling.allowed p c ∧ ∀ r, settling.next p c r = p := by
  cases c <;> first | exact ⟨trivial, fun _ => rfl⟩ | exact hc.elim

/-- The rule for a part that makes no query. -/
theorem settling_of_quiet {α : Type} {p : Actor × Stage} {x : Exec α} {Q : Actor × Stage → α → Prop}
    {E : Actor × Stage → Error → Prop} (hx : Only Call.quiet x.run) (hQ : ∀ a, Q p a) (hE : ∀ e, E p e) :
    MeetsE settling p x Q E :=
  MeetsE.of_only hx settling_quiet hQ hE

/-- The rule for a part that makes no query and cannot fail. -/
theorem settling_bindLift {α β : Type} {p : Actor × Stage} {x : Prog Calls α} {f : α → Exec β}
    {Q : Actor × Stage → β → Prop} {E : Actor × Stage → Error → Prop} (hx : Only Call.quiet x)
    (hf : ∀ a, MeetsE settling p (f a) Q E) : MeetsE settling p ((liftM x : Exec α) >>= f) Q E :=
  MeetsE.bindLift_of_only hx settling_quiet hf

theorem Trader.execute_settling (t : Trader) (signal : Signal) :
    MeetsE settling (.execute t signal, .idle) (t.execute signal) (fun p trade => p.2 = .opened trade)
      fun p _ => ∀ trade, p.2 ≠ .holding trade := by
  have idle : ∀ trade, Stage.idle ≠ .holding trade := fun _ h => nomatch h
  have ended : ∀ trade, Stage.over ≠ .holding trade := fun _ h => nomatch h
  refine MeetsE.bind (MeetsE.bind (meets_query .account (fun account => ?_) fun _ => idle))
  cases account with
  | none => exact MeetsE.throw idle
  | some account =>
    dsimp only
    split
    · exact MeetsE.bind (MeetsE.throw idle)
    refine MeetsE.bind (settling_of_quiet (t.quiet_latestBidAsk _) (fun tick => ?_) fun _ => idle)
    split
    · rename_i quantity _
      refine settling_bindLift quiet_utcNow fun now => MeetsE.pure ?_
      refine MeetsE.bind (settling_of_quiet (t.quiet_fillOpen signal quantity) (fun fill => ?_) fun _ => idle)
      refine settling_bindLift quiet_utcNow fun entryAt => ?_
      refine settling_bindLift (t.only_resolveExchangePositionId trivial) fun pid => ?_
      refine settling_bindLift (t.only_placeProtectiveStopOrder fun _ _ => trivial) fun stop => ?_
      refine settling_bindLift quiet_newUuid fun id => ?_
      refine MeetsE.bind (meets_query (.openTrade rfl rfl rfl rfl rfl) (fun _ => ?_) fun _ => ended)
      exact MeetsE.pure rfl
    · exact MeetsE.throw idle

theorem closeAndReleaseLockOnError_settling (t : Trader) (uuid : Uuid) (exitReason : ExitReason) (trade : Trade)
    (stale : Bool) :
    MeetsE settling (.closePosition t uuid exitReason, .holding trade) (t.closeAndReleaseLockOnError uuid trade stale)
      (fun p _ => p = (.closePosition t uuid exitReason, .holding trade)) fun p _ => ∀ trade, p.2 ≠ .holding trade := by
  refine MeetsE.bind (MeetsE.attempt (settling_of_quiet ?_ (fun fill => ?_) fun e => ?_))
  · split
    · exact t.quiet_fillCloseWithStaleRecovery trade
    · exact OnlyE.bind (t.quiet_fillClose trade) fun _ => trivial
  · exact MeetsE.pure rfl
  · refine MeetsE.bind (MeetsE.attempt (meets_query .unlock (fun _ => ?_) fun _ => ?_)) <;>
      exact MeetsE.throw fun _ h => nomatch h

theorem closePosition_settling (t : Trader) (uuid : Uuid) (exitReason : ExitReason) :
    Meets settling (.closePosition t uuid exitReason, .idle) (Actor.closePosition t uuid exitReason).prog.run
      Actor.ended := by
  have ended : ∀ trade, Stage.over ≠ .holding trade := fun _ h => nomatch h
  refine MeetsE.run (MeetsE.map (MeetsE.bind (MeetsE.bind (meets_query .lock (fun lock => ?_) fun _ => ended))))
  cases lock with
  | none => exact MeetsE.throw ended
  | some lock =>
    refine MeetsE.pure (settling_bindLift (t.quiet_liveSfdSnapshot _) fun sfd => ?_)
    refine MeetsE.bind ((closeAndReleaseLockOnError_settling t uuid exitReason lock.trade _).mono (fun p fill hp => ?_)
      fun p e he => he)
    subst hp
    refine settling_bindLift quiet_utcNow fun exitAt => ?_
    refine MeetsE.bind (meets_query (.close _ _ _ _) (fun _ => ?_) fun _ => ended)
    exact MeetsE.pure rfl

theorem closeTradeReconciled_settling (tradeId : Uuid) (exitPrice pnlAmount : Decimal) (exitReason : ExitReason) :
    Meets settling (.closeTradeReconciled tradeId exitPrice pnlAmount exitReason, .idle)
      (Actor.closeTradeReconciled tradeId exitPrice pnlAmount exitReason).prog.run Actor.ended := by
  have ended : ∀ trade, Stage.over ≠ .holding trade := fun _ h => nomatch h
  refine MeetsE.run (MeetsE.map (settling_bindLift quiet_utcNow fun at' => ?_))
  refine MeetsE.bind (meets_query .select (fun o => ?_) fun _ => ended)
  cases o with
  | none => exact MeetsE.throw ended
  | some trade => exact meets_query (.reconcile at') (fun _ => ended) fun _ => ended

/-- A task that is one query. -/
theorem query_settling {a : Actor} {q : Query} (hq : a.MayAsk .idle q)
    (hafter : ∀ r trade, Stage.idle.after q r ≠ .holding trade := by intro r trade; cases r <;> nofun) :
    Meets settling (a, .idle) ((fun _ => Outcome.finished) <$> query q : Exec Outcome).run Actor.ended :=
  MeetsE.run (MeetsE.map (meets_query hq (fun _ => hafter _) fun _ => hafter _))

/-- Every task keeps to `settling`. -/
theorem Actor.settling : ∀ a : Actor, Meets settling (a, .idle) a.prog.run Actor.ended
  | .execute t signal => MeetsE.run (MeetsE.map (t.execute_settling signal))
  | .closePosition t uuid exitReason => closePosition_settling t uuid exitReason
  | .closeTradeReconciled tradeId exitPrice pnlAmount exitReason =>
    closeTradeReconciled_settling tradeId exitPrice pnlAmount exitReason
  | .applyOvernightFee _ _ _ => query_settling .overnightFee
  | .applySfdFee _ _ _ _ => query_settling .sfdFee
  | .applySwapFee _ _ _ _ => query_settling .swapFee
  | .addFees _ _ => query_settling .addFees
  | .releaseCloseLock _ => query_settling .release

end AutoTrader
