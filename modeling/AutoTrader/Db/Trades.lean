import AutoTrader.Db.Schema

/-!
# Queries on trades and accounts

The statements of the database crate, each as what it does to the database. `acquireCloseLock` and
`releaseCloseLock` move a trade between `open` and `closing`, `updateTradeClosed` and the transaction
of `close_trade_reconciled` end it, `lockMargin` and `releaseMargin` move its margin, and
`applyFeeInner` and `addFees` charge it. The `_ok` lemma of each says what it did when it committed.
-/

namespace AutoTrader

variable {now : DateTime} {db db' : Db} {tradeId accountId : Uuid}

/-- Whether the trade is still to be settled: `status IN ('open', 'closing')`. -/
def TradeStatus.unsettled : TradeStatus → Bool
  | .open | .closing => true
  | .closed => false

@[simp] theorem TradeStatus.unsettled_iff {s : TradeStatus} : s.unsettled = true ↔ s ≠ .closed := by
  cases s <;> simp [TradeStatus.unsettled]

@[simp] theorem TradeStatus.unsettled_false {s : TradeStatus} : s.unsettled = false ↔ s = .closed := by
  cases s <;> simp [TradeStatus.unsettled]

/-! ## Closing -/

/-- Seconds after which a trade that is still closing counts as stale. -/
def staleClosingThresholdSecs : Int := 300

/-- A trade whose close lock was taken. -/
structure CloseLockAcquired where
  trade : Trade
  wasStaleRecovery : Bool
  deriving DecidableEq, Repr

/-- The lock of the trade was taken so long ago that it can be taken over. -/
def TradeRow.stale (r : TradeRow) (now : DateTime) : Bool :=
  r.status = .closing && r.closingStartedAt.any fun t => t < now - seconds staleClosingThresholdSecs

/-- The `WHERE` clause of `acquire_close_lock`. -/
def TradeRow.lockable (r : TradeRow) (accountId : Uuid) (now : DateTime) : Bool :=
  r.accountId = accountId && (r.status = .open || r.stale now)

theorem TradeRow.lockable_account {r : TradeRow} {accountId : Uuid} {now : DateTime} (h : r.lockable accountId now) :
    r.accountId = accountId := by
  simp only [lockable, Bool.and_eq_true, decide_eq_true_eq] at h
  exact h.1

/-- The row under the close lock. -/
def TradeRow.startClosing (r : TradeRow) (now : DateTime) : TradeRow :=
  { r with status := .closing, closingStartedAt := some now }

/-- The close lock is taken, where the trade is open or its lock is stale. -/
def acquireCloseLock (tradeId accountId : Uuid) : Tx (Option CloseLockAcquired) := do
  let now ← read
  let row ← updateTrade tradeId (fun r => r.lockable accountId now) fun r => r.startClosing now
  return row.map fun r => ⟨(r.startClosing now).toTrade, r.closingStartedAt.isSome⟩

theorem acquireCloseLock_ok {o : Option CloseLockAcquired}
    (h : (acquireCloseLock tradeId accountId).run now db = .ok (o, db')) :
    (∃ r, db.trades.find? tradeId = some r ∧ r.lockable accountId now ∧
      o = some ⟨(r.startClosing now).toTrade, r.closingStartedAt.isSome⟩ ∧
      db' = { db with trades := db.trades.set (r.startClosing now) }) ∨ (o = none ∧ db' = db) := by
  simp only [acquireCloseLock, Tx.ok_bind, Tx.run_read, Tx.run_pure] at h
  obtain ⟨_, _, ⟨rfl, rfl⟩, row, db₁, hu, rfl, rfl⟩ := h
  rcases updateTrade_ok hu with ⟨r, rfl, hr, hp, rfl⟩ | ⟨rfl, -, rfl⟩
  · exact .inl ⟨r, hr, hp, rfl, rfl⟩
  · exact .inr ⟨rfl, rfl⟩

/-- The row without the close lock. -/
def TradeRow.reopen (r : TradeRow) : TradeRow := { r with status := .open, closingStartedAt := none }

/-- The close lock is given back. -/
def releaseCloseLock (tradeId : Uuid) : Tx Unit := do
  let _ ← updateTrade tradeId (fun r => r.status = .closing) TradeRow.reopen

theorem releaseCloseLock_ok {u : Unit} (h : (releaseCloseLock tradeId).run now db = .ok (u, db')) :
    (∃ r, db.trades.find? tradeId = some r ∧ r.status = .closing ∧ db' = { db with trades := db.trades.set r.reopen }) ∨
      ((∀ r, db.trades.find? tradeId = some r → r.status ≠ .closing) ∧ db' = db) := by
  simp only [releaseCloseLock, Tx.ok_bind, Tx.run_pure] at h
  obtain ⟨row, db₁, hu, -, rfl⟩ := h
  rcases updateTrade_ok hu with ⟨r, -, hr, hp, rfl⟩ | ⟨-, hn, rfl⟩
  · exact .inl ⟨r, hr, by simpa using hp, rfl⟩
  · exact .inr ⟨fun r hr => by simpa using hn r hr, rfl⟩

/-- The closed row. -/
def TradeRow.settle (r : TradeRow) (exitPrice : Decimal) (exitAt : DateTime) (pnlAmount : Decimal)
    (exitReason : ExitReason) (fees : Decimal) : TradeRow :=
  { r with
    exitPrice := some exitPrice, exitAt := some exitAt, pnlAmount := some pnlAmount
    exitReason := some exitReason, fees, status := .closed, closingStartedAt := none }

/-- An unsettled trade is closed. -/
def updateTradeClosed (tradeId : Uuid) (exitPrice : Decimal) (exitAt : DateTime) (pnlAmount : Decimal)
    (exitReason : ExitReason) (fees : Decimal) : Tx Unit := do
  let row ← updateTrade tradeId (fun r => r.status.unsettled) fun r =>
    r.settle exitPrice exitAt pnlAmount exitReason fees
  if row.isNone then throw [.lit "failed to close trade: not found or already closed"]

/-- A statement that must change a row changed one. -/
theorem updateTrade_isSome {p : TradeRow → Bool} {f : TradeRow → TradeRow} {e : Error} {u : Unit}
    (h : (do
      let row ← updateTrade tradeId p f
      if row.isNone then throw e : Tx Unit).run now db = .ok (u, db')) :
    ∃ r, db.trades.find? tradeId = some r ∧ p r ∧ db' = { db with trades := db.trades.set (f r) } := by
  simp only [Tx.ok_bind] at h
  obtain ⟨row, db₁, hu, h⟩ := h
  rcases updateTrade_ok hu with ⟨r, rfl, hr, hp, rfl⟩ | ⟨rfl, -, rfl⟩
  · simp only [Option.isNone_some, Bool.false_eq_true, ↓reduceIte, Tx.run_pure] at h
    exact ⟨r, hr, hp, h.2.symm⟩
  · simp at h

theorem updateTradeClosed_ok {exitPrice pnlAmount fees : Decimal} {exitAt : DateTime} {exitReason : ExitReason}
    {u : Unit}
    (h : (updateTradeClosed tradeId exitPrice exitAt pnlAmount exitReason fees).run now db = .ok (u, db')) :
    ∃ r, db.trades.find? tradeId = some r ∧ r.status ≠ .closed ∧
      db' = { db with trades := db.trades.set (r.settle exitPrice exitAt pnlAmount exitReason fees) } := by
  obtain ⟨r, hr, hp, rfl⟩ := updateTrade_isSome h
  exact ⟨r, hr, by simpa using hp, rfl⟩

/-! ## Margin -/

/-- The error of a query that must return a row and returns none. -/
def rowNotFound : Error := [.lit "no rows returned by a query that expected to return at least one row"]

/-- The margin of an open leaves the balance. -/
def lockMargin (accountId tradeId : Uuid) (marginAmount : Decimal) : Tx Unit := do
  let now ← read
  let some account ← updateAccount accountId fun a => { a with currentBalance := a.currentBalance - marginAmount }
    | throw rowNotFound
  let newBalance := account.currentBalance
  insertAccountEvent ⟨accountId, tradeId, .marginLock, -marginAmount, newBalance, now⟩

theorem lockMargin_ok {marginAmount : Decimal} {u : Unit}
    (h : (lockMargin accountId tradeId marginAmount).run now db = .ok (u, db')) :
    ∃ a, db.accounts.find? accountId = some a ∧ db' = { db with
      accounts := db.accounts.set { a with currentBalance := a.currentBalance - marginAmount }
      accountEvents := ⟨accountId, tradeId, .marginLock, -marginAmount, a.currentBalance - marginAmount, now⟩ ::
        db.accountEvents } := by
  simp only [lockMargin, Tx.ok_bind, Tx.run_read] at h
  obtain ⟨_, _, ⟨rfl, rfl⟩, o, db₁, hu, h⟩ := h
  rcases updateAccount_ok hu with ⟨a, rfl, ha, rfl⟩ | ⟨rfl, -, rfl⟩
  · simp only [insertAccountEvent_ok] at h
    exact ⟨a, ha, h.symm⟩
  · simp at h

/-- The margin and the profit of a close enter the balance, each with its event. -/
def releaseMargin (accountId tradeId : Uuid) (marginReturn pnlAmount : Decimal) : Tx Unit := do
  let now ← read
  let some account ← updateAccount accountId fun a =>
      { a with currentBalance := a.currentBalance + marginReturn + pnlAmount }
    | throw rowNotFound
  let newBalance := account.currentBalance
  insertAccountEvent ⟨accountId, tradeId, .marginRelease, marginReturn, newBalance - pnlAmount, now⟩
  insertAccountEvent ⟨accountId, tradeId, .tradeClose, pnlAmount, newBalance, now⟩

theorem releaseMargin_ok {marginReturn pnlAmount : Decimal} {u : Unit}
    (h : (releaseMargin accountId tradeId marginReturn pnlAmount).run now db = .ok (u, db')) :
    ∃ a, db.accounts.find? accountId = some a ∧ db' = { db with
      accounts := db.accounts.set { a with currentBalance := a.currentBalance + marginReturn + pnlAmount }
      accountEvents :=
        ⟨accountId, tradeId, .tradeClose, pnlAmount, a.currentBalance + marginReturn + pnlAmount, now⟩ ::
        ⟨accountId, tradeId, .marginRelease, marginReturn,
          a.currentBalance + marginReturn + pnlAmount - pnlAmount, now⟩ :: db.accountEvents } := by
  simp only [releaseMargin, Tx.ok_bind, Tx.run_read] at h
  obtain ⟨_, _, ⟨rfl, rfl⟩, o, db₁, hu, h⟩ := h
  rcases updateAccount_ok hu with ⟨a, rfl, ha, rfl⟩ | ⟨rfl, -, rfl⟩
  · simp only [Tx.ok_bind, insertAccountEvent_ok] at h
    obtain ⟨_, _, rfl, h⟩ := h
    exact ⟨a, ha, h.symm⟩
  · simp at h

theorem releaseMargin_run {marginReturn pnlAmount : Decimal} {a : TradingAccount}
    (ha : db.accounts.find? accountId = some a) :
    ∃ db', (releaseMargin accountId tradeId marginReturn pnlAmount).run now db = .ok ((), db') := by
  simp only [releaseMargin, Tx.ok_bind, Tx.run_read]
  exact ⟨_, _, _, ⟨rfl, rfl⟩, _, _, updateAccount_run ha, rfl⟩

/-- The `SELECT` that `close_trade_reconciled` makes before its transaction. -/
def selectUnsettled (tradeId : Uuid) : Tx (Option Trade) := do
  let db ← get
  return (db.trades.find? tradeId).bind fun r => if r.status.unsettled then some r.toTrade else none

theorem selectUnsettled_ok {o : Option Trade} (h : (selectUnsettled tradeId).run now db = .ok (o, db')) :
    db' = db ∧ ∀ t, o = some t → ∃ r, db.trades.find? tradeId = some r ∧ r.status ≠ .closed ∧ t = r.toTrade := by
  simp only [selectUnsettled, Tx.ok_bind, Tx.run_get, Tx.run_pure] at h
  obtain ⟨_, _, ⟨rfl, rfl⟩, rfl, rfl⟩ := h
  refine ⟨rfl, fun t ht => ?_⟩
  obtain ⟨r, hr, ht⟩ := Option.bind_eq_some_iff.mp ht
  split at ht
  · rename_i hs
    exact ⟨r, hr, by simpa using hs, (Option.some.inj ht).symm⟩
  · cases ht

/-- The transaction of `close_trade_reconciled`, which leaves the fees of the trade as they are. -/
def closeTradeReconciledTx (tradeId accountId : Uuid) (exitPrice : Decimal) (exitAt : DateTime)
    (pnlAmount : Decimal) (exitReason : ExitReason) (margin : Decimal) : Tx Unit := do
  let row ← updateTrade tradeId (fun r => r.status.unsettled) fun r =>
    r.settle exitPrice exitAt pnlAmount exitReason r.fees
  if row.isNone then throw [.lit "failed to close trade: not found or already closed"]
  releaseMargin accountId tradeId margin pnlAmount

theorem closeTradeReconciledTx_ok {exitPrice pnlAmount margin : Decimal} {exitAt : DateTime}
    {exitReason : ExitReason} {u : Unit}
    (h : (closeTradeReconciledTx tradeId accountId exitPrice exitAt pnlAmount exitReason margin).run now db =
      .ok (u, db')) :
    ∃ r a, db.trades.find? tradeId = some r ∧ r.status ≠ .closed ∧ db.accounts.find? accountId = some a ∧
      db' = { db with
        trades := db.trades.set (r.settle exitPrice exitAt pnlAmount exitReason r.fees)
        accounts := db.accounts.set { a with currentBalance := a.currentBalance + margin + pnlAmount }
        accountEvents :=
          ⟨accountId, tradeId, .tradeClose, pnlAmount, a.currentBalance + margin + pnlAmount, now⟩ ::
          ⟨accountId, tradeId, .marginRelease, margin,
            a.currentBalance + margin + pnlAmount - pnlAmount, now⟩ :: db.accountEvents } := by
  simp only [closeTradeReconciledTx, Tx.ok_bind] at h
  obtain ⟨row, db₁, hu, h⟩ := h
  rcases updateTrade_ok hu with ⟨r, rfl, hr, hp, rfl⟩ | ⟨rfl, -, rfl⟩
  · simp only [Option.isNone_some, Bool.false_eq_true, ↓reduceIte] at h
    obtain ⟨a, ha, rfl⟩ := releaseMargin_ok h
    exact ⟨r, a, hr, by simpa using hp, ha, rfl⟩
  · simp [Tx.ok_bind] at h

theorem closeTradeReconciledTx_run {exitPrice pnlAmount margin : Decimal} {exitAt : DateTime}
    {exitReason : ExitReason} {r : TradeRow} {a : TradingAccount} (hr : db.trades.find? tradeId = some r)
    (hs : r.status.unsettled) (ha : db.accounts.find? accountId = some a) :
    ∃ db', (closeTradeReconciledTx tradeId accountId exitPrice exitAt pnlAmount exitReason margin).run now db =
      .ok ((), db') := by
  simp only [closeTradeReconciledTx, Tx.ok_bind]
  obtain ⟨db', h⟩ : ∃ db', (releaseMargin accountId tradeId margin pnlAmount).run now
      { db with trades := db.trades.set (r.settle exitPrice exitAt pnlAmount exitReason r.fees) } = .ok ((), db') :=
    releaseMargin_run ha
  exact ⟨db', _, _, updateTrade_run hr hs, h⟩

/-! ## Fees -/

/-- A fee is added to the row. -/
def TradeRow.charge (r : TradeRow) (fee : Decimal) : TradeRow := { r with fees := r.fees + fee }

/-- A fee of an open trade: it enters the row, leaves the balance and makes an event. -/
def applyFeeInner (accountId tradeId : Uuid) (feeAmount : Decimal) (eventType : EventType)
    (occurredAt : Option DateTime) : Tx (Option Decimal) := do
  let now ← read
  let tradeUpdated ← updateTrade tradeId (fun r => r.accountId = accountId && r.status = .open) fun r =>
    r.charge feeAmount
  if tradeUpdated.isNone then return none
  let some account ← updateAccount accountId fun a => { a with currentBalance := a.currentBalance - feeAmount }
    | throw rowNotFound
  let newBalance := account.currentBalance
  insertAccountEvent ⟨accountId, tradeId, eventType, -feeAmount, newBalance, occurredAt.getD now⟩
  return some newBalance

theorem applyFeeInner_ok {feeAmount : Decimal} {eventType : EventType} {occurredAt : Option DateTime}
    {o : Option Decimal}
    (h : (applyFeeInner accountId tradeId feeAmount eventType occurredAt).run now db = .ok (o, db')) :
    o = none ∧ db' = db ∨ o.isSome ∧ ∃ r a, db.trades.find? tradeId = some r ∧ r.accountId = accountId ∧
      r.status = .open ∧ db.accounts.find? accountId = some a ∧ db' = { db with
        trades := db.trades.set (r.charge feeAmount)
        accounts := db.accounts.set { a with currentBalance := a.currentBalance - feeAmount }
        accountEvents := ⟨accountId, tradeId, eventType, -feeAmount, a.currentBalance - feeAmount,
          occurredAt.getD now⟩ :: db.accountEvents } := by
  simp only [applyFeeInner, Tx.ok_bind, Tx.run_read] at h
  obtain ⟨_, _, ⟨rfl, rfl⟩, row, db₁, hu, h⟩ := h
  rcases updateTrade_ok hu with ⟨r, rfl, hr, hp, rfl⟩ | ⟨rfl, -, rfl⟩
  · simp only [Option.isNone_some, Bool.false_eq_true, ↓reduceIte, Tx.ok_bind] at h
    obtain ⟨o', db₂, hb, h⟩ := h
    rcases updateAccount_ok hb with ⟨a, rfl, ha, rfl⟩ | ⟨rfl, -, rfl⟩
    · simp only [Tx.ok_bind, insertAccountEvent_ok, Tx.run_pure] at h
      obtain ⟨_, _, rfl, rfl, rfl⟩ := h
      simp only [Bool.and_eq_true, decide_eq_true_eq] at hp
      exact .inr ⟨rfl, r, a, hr, hp.1, hp.2, ha, rfl⟩
    · simp at h
  · simp only [Option.isNone_none, ↓reduceIte, Tx.run_pure] at h
    exact .inl ⟨h.1.symm, h.2.symm⟩

theorem applyFeeInner_run {feeAmount : Decimal} {eventType : EventType} {occurredAt : Option DateTime} {r : TradeRow}
    {a : TradingAccount} (hr : db.trades.find? tradeId = some r) (haccount : r.accountId = accountId)
    (hopen : r.status = .open) (ha : db.accounts.find? accountId = some a) :
    (applyFeeInner accountId tradeId feeAmount eventType occurredAt).run now db =
      .ok (some (a.currentBalance - feeAmount), { db with
        trades := db.trades.set (r.charge feeAmount)
        accounts := db.accounts.set { a with currentBalance := a.currentBalance - feeAmount }
        accountEvents := ⟨accountId, tradeId, eventType, -feeAmount, a.currentBalance - feeAmount,
          occurredAt.getD now⟩ :: db.accountEvents }) := by
  have hp : (decide (r.accountId = accountId) && decide (r.status = .open)) = true := by simp [haccount, hopen]
  simp only [applyFeeInner, Tx.ok_bind, Tx.run_read]
  refine ⟨now, db, ⟨rfl, rfl⟩, some r, _, updateTrade_run hr hp, ?_⟩
  simp only [Option.isNone_some, Bool.false_eq_true, ↓reduceIte, Tx.ok_bind]
  exact ⟨_, _, updateAccount_run ha, rfl⟩

/-- The overnight fee. -/
def applyOvernightFee (accountId tradeId : Uuid) (feeAmount : Decimal) : Tx (Option Decimal) :=
  applyFeeInner accountId tradeId feeAmount .overnightFee none

/-- The SFD fee. -/
def applySfdFee (accountId tradeId : Uuid) (feeAmount : Decimal) (occurredAt : DateTime) : Tx (Option Decimal) :=
  applyFeeInner accountId tradeId feeAmount .sfdFee (some occurredAt)

/-- The swap fee. -/
def applySwapFee (accountId tradeId : Uuid) (feeAmount : Decimal) (occurredAt : DateTime) : Tx (Option Decimal) :=
  applyFeeInner accountId tradeId feeAmount .swapFee (some occurredAt)

/-- A fee that only enters the row. -/
def addFees (id : Uuid) (feeDelta : Decimal) : Tx Unit := do
  let row ← updateTrade id (fun _ => true) fun r => r.charge feeDelta
  if row.isNone then throw [.lit "failed to add fees for trade: not found"]

theorem addFees_ok {feeDelta : Decimal} {u : Unit} (h : (addFees tradeId feeDelta).run now db = .ok (u, db')) :
    ∃ r, db.trades.find? tradeId = some r ∧ db' = { db with trades := db.trades.set (r.charge feeDelta) } := by
  obtain ⟨r, hr, -, rfl⟩ := updateTrade_isSome h
  exact ⟨r, hr, rfl⟩

theorem addFees_run {fee : Decimal} {r : TradeRow} (hr : db.trades.find? tradeId = some r) :
    (addFees tradeId fee).run now db = .ok ((), { db with trades := db.trades.set (r.charge fee) }) := by
  simp only [addFees, Tx.ok_bind]
  exact ⟨_, _, updateTrade_run hr rfl, rfl⟩

/-! ## Opening and reading -/

/-- Inserts the trade, subject to the constraints of the table: a new identifier, an account that
exists and a positive quantity. -/
def insertTrade (trade : Trade) : Tx Unit := do
  let db ← get
  if (db.accounts.find? trade.accountId).isNone || decide (trade.quantity ≤ 0) then
    throw [.lit "constraint violated"]
  let some trades := db.trades.insert ⟨trade, none⟩ | throw [.lit "constraint violated"]
  set { db with trades }

theorem insertTrade_ok {trade : Trade} {u : Unit} (h : (insertTrade trade).run now db = .ok (u, db')) :
    ∃ trades, db.trades.insert ⟨trade, none⟩ = some trades ∧ 0 < trade.quantity ∧
      (∃ a, db.accounts.find? trade.accountId = some a) ∧ db' = { db with trades } := by
  simp only [insertTrade, Tx.ok_bind, Tx.run_get] at h
  obtain ⟨_, _, ⟨rfl, rfl⟩, h⟩ := h
  cases hb : (db.accounts.find? trade.accountId).isNone || decide (trade.quantity ≤ 0) with
  | true => simp [hb, Tx.ok_bind] at h
  | false =>
    simp only [hb, Bool.false_eq_true, ↓reduceIte] at h
    simp only [Bool.or_eq_false_iff, Option.isNone_eq_false_iff, decide_eq_false_iff_not, not_le] at hb
    cases ht : db.trades.insert ⟨trade, none⟩ with
    | none => simp [ht] at h
    | some trades =>
      simp only [ht, Tx.run_set] at h
      exact ⟨trades, rfl, hb.2, Option.isSome_iff_exists.mp hb.1, h.symm⟩

/-- The notification of an open. -/
def insertTradeOpened (trade : Trade) : Tx Unit :=
  insertNotification ⟨.tradeOpened, trade.id, trade.accountId, trade.strategyName, trade.pair, trade.direction,
    trade.entryPrice, none, none⟩

/-- The notification of a close. -/
def insertTradeClosed (trade : Trade) : Tx Unit := do
  let some exitPrice := trade.exitPrice | throw [.lit "invalid trade: missing exit_price"]
  let some pnlAmount := trade.pnlAmount | throw [.lit "invalid trade: missing pnl_amount"]
  let some exitReason := trade.exitReason | throw [.lit "invalid trade: missing exit_reason"]
  insertNotification ⟨.tradeClosed, trade.id, trade.accountId, trade.strategyName, trade.pair, trade.direction,
    exitPrice, some pnlAmount, some exitReason⟩

theorem insertTradeClosed_ok {trade : Trade} {u : Unit} (h : (insertTradeClosed trade).run now db = .ok (u, db')) :
    ∃ ns, db' = { db with notifications := ns } := by
  cases he : trade.exitPrice with
  | none => simp [insertTradeClosed, he] at h
  | some p =>
    cases hp : trade.pnlAmount with
    | none => simp [insertTradeClosed, he, hp] at h
    | some q =>
      cases hr : trade.exitReason with
      | none => simp [insertTradeClosed, he, hp, hr] at h
      | some e =>
        simp only [insertTradeClosed, he, hp, hr, insertNotification_ok] at h
        exact ⟨_, h.symm⟩

/-- The open trades of the account, newest entry first; a trade that is closing is not among them. -/
def getOpenTradesByAccount (accountId : Uuid) : Tx (List Trade) := do
  let db ← get
  let rows := db.trades.rows.filter fun r => r.accountId = accountId && r.status = .open
  return (rows.map TradeRow.toTrade).mergeSort fun t u => u.entryAt ≤ t.entryAt

theorem getOpenTradesByAccount_ok {trades : List Trade}
    (h : (getOpenTradesByAccount accountId).run now db = .ok (trades, db')) :
    db' = db ∧ ∀ r ∈ db.trades.rows, r.accountId = accountId → r.status = .open → r.toTrade ∈ trades := by
  simp only [getOpenTradesByAccount, Tx.ok_bind, Tx.run_get, Tx.run_pure] at h
  obtain ⟨_, _, ⟨rfl, rfl⟩, rfl, rfl⟩ := h
  refine ⟨rfl, fun r hr haccount hopen => ?_⟩
  rw [List.mem_mergeSort, List.mem_map]
  exact ⟨r, List.mem_filter.mpr ⟨hr, by simp [haccount, hopen]⟩, rfl⟩

/-! ## Accounts -/

/-- The account of an identifier. -/
def getAccount (id : Uuid) : Tx (Option TradingAccount) := do
  let db ← get
  return db.accounts.find? id

/-- The active accounts, oldest first. -/
def listActive : Tx (List TradingAccount) := do
  let db ← get
  return (db.accounts.rows.filter TradingAccount.active).mergeSort fun a b => a.createdAt ≤ b.createdAt

/-- The accounts that are active or have an unsettled trade, oldest first. -/
def listActiveOrWithOpenTrades : Tx (List TradingAccount) := do
  let db ← get
  let listed (a : TradingAccount) : Bool :=
    a.active || db.trades.rows.any fun r => r.accountId = a.id && r.status.unsettled
  return (db.accounts.rows.filter listed).mergeSort fun a b => a.createdAt ≤ b.createdAt

/-- The balance of an account is set. -/
def updateBalance (id : Uuid) (newBalance : Decimal) : Tx Unit := do
  let row ← updateAccount id fun a => { a with currentBalance := newBalance }
  if row.isNone then throw [.lit "failed to update balance for account: not found"]

/-- Sets the balance to the initial balance plus the profits minus the fees of the closed trades. -/
def recalculateBalance (accountId : Uuid) : Tx Decimal := do
  let db ← get
  let activeCount := (db.trades.rows.filter fun r => r.accountId = accountId && r.status.unsettled).length
  if 0 < activeCount then
    throw [.lit "failed to recalculate balance for account: ", .arg (toString activeCount),
      .lit " open/closing trade(s) exist"]
  let some account := db.accounts.find? accountId
    | throw [.lit "failed to recalculate balance for account: account not found"]
  let closed := db.trades.rows.filter fun r => r.accountId = accountId && r.status = .closed
  let totalPnl := (closed.filterMap (·.pnlAmount)).sum
  let totalFees := (closed.map (·.fees)).sum
  let newBalance := account.initialBalance + totalPnl - totalFees
  updateBalance accountId newBalance
  return newBalance

theorem recalculateBalance_ok {newBalance : Decimal}
    (h : (recalculateBalance accountId).run now db = .ok (newBalance, db')) :
    ∃ a, db.accounts.find? accountId = some a ∧
      (∀ r ∈ db.trades.rows, r.accountId = accountId → r.status = .closed) ∧
      newBalance = a.initialBalance +
        ((db.trades.rows.filter fun r => r.accountId = accountId && r.status = .closed).filterMap (·.pnlAmount)).sum -
        ((db.trades.rows.filter fun r => r.accountId = accountId && r.status = .closed).map (·.fees)).sum ∧
      db' = { db with accounts := db.accounts.set { a with currentBalance := newBalance } } := by
  simp only [recalculateBalance, Tx.ok_bind, Tx.run_get] at h
  obtain ⟨_, _, ⟨rfl, rfl⟩, h⟩ := h
  split at h
  · simp [Tx.ok_bind] at h
  rename_i hactive
  have hclosed : ∀ r ∈ db.trades.rows, r.accountId = accountId → r.status = .closed := by
    intro r hr hid
    by_contra hs
    refine hactive (List.length_pos_of_mem (List.mem_filter.mpr ⟨hr, ?_⟩))
    simp [hid, hs]
  cases ha : db.accounts.find? accountId with
  | none => simp [ha] at h
  | some a =>
    simp only [ha, updateBalance, Tx.ok_bind, Tx.run_pure] at h
    obtain ⟨_, db₁, ⟨row, db₂, hu, h⟩, rfl, rfl⟩ := h
    rcases updateAccount_ok hu with ⟨b, rfl, hb, rfl⟩ | ⟨rfl, -, rfl⟩
    · rw [ha] at hb
      cases hb
      simp only [Option.isNone_some, Bool.false_eq_true, ↓reduceIte, Tx.run_pure] at h
      exact ⟨a, rfl, hclosed, rfl, h.2.symm⟩
    · simp at h

end AutoTrader
