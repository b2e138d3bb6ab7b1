import AutoTrader.Db.Trades

/-!
# The queries of the trading tasks

`Query` lists the statements and transactions that the tasks run, `Query.tx` what each does and
`Query.wrote` what it has written once it committed. A row that is there can only take one of the
steps of `RowStep` (`Query.wrote_row`): its terms stay, and so does its exit once it is closed.
-/

namespace AutoTrader

/-- The transaction of `persist_open_trade`. -/
def persistOpenTradeTx (accountId : Uuid) (trade : Trade) (margin : Decimal) : Tx Unit := do
  insertTrade trade
  lockMargin accountId trade.id margin
  insertTradeOpened trade

/-- The transaction of `persist_closed_trade`. -/
def persistClosedTradeTx (accountId : Uuid) (closedTrade : Trade) (margin pnlAmount exitPrice : Decimal)
    (exitAt : DateTime) (exitReason : ExitReason) : Tx Unit := do
  updateTradeClosed closedTrade.id exitPrice exitAt pnlAmount exitReason closedTrade.fees
  releaseMargin accountId closedTrade.id margin pnlAmount
  insertTradeClosed closedTrade

section

variable {now : DateTime} {db db' : Db} {accountId : Uuid}

theorem persistOpenTradeTx_ok {trade : Trade} {margin : Decimal} {u : Unit}
    (h : (persistOpenTradeTx accountId trade margin).run now db = .ok (u, db')) :
    ∃ trades a notifications, db.trades.insert ⟨trade, none⟩ = some trades ∧ 0 < trade.quantity ∧
      db.accounts.find? accountId = some a ∧ db' = {
        trades, notifications
        accounts := db.accounts.set { a with currentBalance := a.currentBalance - margin }
        accountEvents := ⟨accountId, trade.id, .marginLock, -margin, a.currentBalance - margin, now⟩ ::
          db.accountEvents } := by
  simp only [persistOpenTradeTx, Tx.ok_bind] at h
  obtain ⟨_, db₁, hi, _, db₂, hl, h⟩ := h
  obtain ⟨trades, ht, hq, -, rfl⟩ := insertTrade_ok hi
  obtain ⟨a, ha, rfl⟩ := lockMargin_ok hl
  simp only [insertTradeOpened, insertNotification_ok] at h
  exact ⟨trades, a, _, ht, hq, ha, h.symm⟩

theorem persistClosedTradeTx_ok {closedTrade : Trade} {margin pnlAmount exitPrice : Decimal} {exitAt : DateTime}
    {exitReason : ExitReason} {u : Unit}
    (h : (persistClosedTradeTx accountId closedTrade margin pnlAmount exitPrice exitAt exitReason).run now db =
      .ok (u, db')) :
    ∃ r a notifications, db.trades.find? closedTrade.id = some r ∧ r.status ≠ .closed ∧
      db.accounts.find? accountId = some a ∧ db' = {
        notifications
        trades := db.trades.set (r.settle exitPrice exitAt pnlAmount exitReason closedTrade.fees)
        accounts := db.accounts.set { a with currentBalance := a.currentBalance + margin + pnlAmount }
        accountEvents :=
          ⟨accountId, closedTrade.id, .tradeClose, pnlAmount, a.currentBalance + margin + pnlAmount, now⟩ ::
          ⟨accountId, closedTrade.id, .marginRelease, margin,
            a.currentBalance + margin + pnlAmount - pnlAmount, now⟩ :: db.accountEvents } := by
  simp only [persistClosedTradeTx, Tx.ok_bind] at h
  obtain ⟨_, db₁, hu, _, db₂, hm, h⟩ := h
  obtain ⟨r, hr, hs, rfl⟩ := updateTradeClosed_ok hu
  obtain ⟨a, ha, rfl⟩ := releaseMargin_ok hm
  obtain ⟨notifications, rfl⟩ := insertTradeClosed_ok h
  exact ⟨r, a, notifications, hr, hs, ha, rfl⟩

end

/-! ## All queries -/

/-- The queries of the trading code. -/
inductive Query where
  | getAccount (id : Uuid)
  | listActive
  | getOpenTradesByAccount (accountId : Uuid)
  | acquireCloseLock (tradeId accountId : Uuid)
  | releaseCloseLock (tradeId : Uuid)
  | persistOpenTrade (accountId : Uuid) (trade : Trade) (margin : Decimal)
  | persistClosedTrade (accountId : Uuid) (closedTrade : Trade) (margin pnlAmount exitPrice : Decimal)
      (exitAt : DateTime) (exitReason : ExitReason)
  | selectUnsettled (tradeId : Uuid)
  | closeTradeReconciled (tradeId accountId : Uuid) (exitPrice : Decimal) (exitAt : DateTime)
      (pnlAmount : Decimal) (exitReason : ExitReason) (margin : Decimal)
  | applyOvernightFee (accountId tradeId : Uuid) (feeAmount : Decimal)
  | applySfdFee (accountId tradeId : Uuid) (feeAmount : Decimal) (occurredAt : DateTime)
  | applySwapFee (accountId tradeId : Uuid) (feeAmount : Decimal) (occurredAt : DateTime)
  | addFees (id : Uuid) (feeDelta : Decimal)

/-- What each query returns. -/
@[reducible] def Query.Ok : Query → Type
  | .getAccount _ => Option TradingAccount
  | .listActive => List TradingAccount
  | .getOpenTradesByAccount _ => List Trade
  | .acquireCloseLock _ _ => Option CloseLockAcquired
  | .selectUnsettled _ => Option Trade
  | .applyOvernightFee _ _ _ | .applySfdFee _ _ _ _ | .applySwapFee _ _ _ _ => Option Decimal
  | .releaseCloseLock _ | .persistOpenTrade _ _ _ | .persistClosedTrade _ _ _ _ _ _ _
  | .closeTradeReconciled _ _ _ _ _ _ _ | .addFees _ _ => Unit

/-- The transaction of each query. -/
def Query.tx : (q : Query) → Tx q.Ok
  | .getAccount id => AutoTrader.getAccount id
  | .listActive => AutoTrader.listActive
  | .getOpenTradesByAccount accountId => AutoTrader.getOpenTradesByAccount accountId
  | .acquireCloseLock tradeId accountId => AutoTrader.acquireCloseLock tradeId accountId
  | .releaseCloseLock tradeId => AutoTrader.releaseCloseLock tradeId
  | .persistOpenTrade accountId trade margin => persistOpenTradeTx accountId trade margin
  | .persistClosedTrade accountId closedTrade margin pnlAmount exitPrice exitAt exitReason =>
    persistClosedTradeTx accountId closedTrade margin pnlAmount exitPrice exitAt exitReason
  | .selectUnsettled tradeId => AutoTrader.selectUnsettled tradeId
  | .closeTradeReconciled tradeId accountId exitPrice exitAt pnlAmount exitReason margin =>
    closeTradeReconciledTx tradeId accountId exitPrice exitAt pnlAmount exitReason margin
  | .applyOvernightFee accountId tradeId feeAmount => AutoTrader.applyOvernightFee accountId tradeId feeAmount
  | .applySfdFee accountId tradeId feeAmount occurredAt => AutoTrader.applySfdFee accountId tradeId feeAmount occurredAt
  | .applySwapFee accountId tradeId feeAmount occurredAt =>
    AutoTrader.applySwapFee accountId tradeId feeAmount occurredAt
  | .addFees id feeDelta => AutoTrader.addFees id feeDelta

/-- What a query wrote when it committed at `now` with an answer. -/
def Query.wrote (now : DateTime) (db : Db) : (q : Query) → q.Ok → Db → Prop
  | .getAccount _, _, db' | .listActive, _, db' => db' = db
  | .getOpenTradesByAccount accountId, trades, db' =>
    db' = db ∧ ∀ r ∈ db.trades.rows, r.accountId = accountId → r.status = .open → r.toTrade ∈ trades
  | .acquireCloseLock tradeId accountId, o, db' =>
    (∃ r, db.trades.find? tradeId = some r ∧ r.lockable accountId now ∧
      o = some ⟨(r.startClosing now).toTrade, r.closingStartedAt.isSome⟩ ∧
      db' = { db with trades := db.trades.set (r.startClosing now) }) ∨ (o = none ∧ db' = db)
  | .releaseCloseLock tradeId, _, db' =>
    (∃ r, db.trades.find? tradeId = some r ∧ r.status = .closing ∧ db' = { db with trades := db.trades.set r.reopen }) ∨
      ((∀ r, db.trades.find? tradeId = some r → r.status ≠ .closing) ∧ db' = db)
  | .persistOpenTrade accountId trade margin, _, db' =>
    ∃ trades a notifications, db.trades.insert ⟨trade, none⟩ = some trades ∧ 0 < trade.quantity ∧
      db.accounts.find? accountId = some a ∧ db' = {
        trades, notifications
        accounts := db.accounts.set { a with currentBalance := a.currentBalance - margin }
        accountEvents := ⟨accountId, trade.id, .marginLock, -margin, a.currentBalance - margin, now⟩ ::
          db.accountEvents }
  | .persistClosedTrade accountId closedTrade margin pnlAmount exitPrice exitAt exitReason, _, db' =>
    ∃ r a notifications, db.trades.find? closedTrade.id = some r ∧ r.status ≠ .closed ∧
      db.accounts.find? accountId = some a ∧ db' = {
        notifications
        trades := db.trades.set (r.settle exitPrice exitAt pnlAmount exitReason closedTrade.fees)
        accounts := db.accounts.set { a with currentBalance := a.currentBalance + margin + pnlAmount }
        accountEvents :=
          ⟨accountId, closedTrade.id, .tradeClose, pnlAmount, a.currentBalance + margin + pnlAmount, now⟩ ::
          ⟨accountId, closedTrade.id, .marginRelease, margin,
            a.currentBalance + margin + pnlAmount - pnlAmount, now⟩ :: db.accountEvents }
  | .selectUnsettled tradeId, o, db' =>
    db' = db ∧ ∀ t, o = some t → ∃ r, db.trades.find? tradeId = some r ∧ r.status ≠ .closed ∧ t = r.toTrade
  | .closeTradeReconciled tradeId accountId exitPrice exitAt pnlAmount exitReason margin, _, db' =>
    ∃ r a, db.trades.find? tradeId = some r ∧ r.status ≠ .closed ∧ db.accounts.find? accountId = some a ∧
      db' = { db with
        trades := db.trades.set (r.settle exitPrice exitAt pnlAmount exitReason r.fees)
        accounts := db.accounts.set { a with currentBalance := a.currentBalance + margin + pnlAmount }
        accountEvents :=
          ⟨accountId, tradeId, .tradeClose, pnlAmount, a.currentBalance + margin + pnlAmount, now⟩ ::
          ⟨accountId, tradeId, .marginRelease, margin,
            a.currentBalance + margin + pnlAmount - pnlAmount, now⟩ :: db.accountEvents }
  | .applyOvernightFee accountId tradeId fee, _, db' | .applySfdFee accountId tradeId fee _, _, db'
  | .applySwapFee accountId tradeId fee _, _, db' =>
    db' = db ∨ ∃ r a eventType at', db.trades.find? tradeId = some r ∧ r.accountId = accountId ∧ r.status = .open ∧
      db.accounts.find? accountId = some a ∧ (eventType ≠ .marginLock ∧ eventType ≠ .marginRelease ∧
      eventType ≠ .tradeClose) ∧ db' = { db with
        trades := db.trades.set (r.charge fee)
        accounts := db.accounts.set { a with currentBalance := a.currentBalance - fee }
        accountEvents := ⟨accountId, tradeId, eventType, -fee, a.currentBalance - fee, at'⟩ :: db.accountEvents }
  | .addFees id feeDelta, _, db' =>
    ∃ r, db.trades.find? id = some r ∧ db' = { db with trades := db.trades.set (r.charge feeDelta) }

theorem Query.wrote_of_ok {now : DateTime} {db db' : Db} :
    ∀ {q : Query} {a : q.Ok}, q.tx.run now db = .ok (a, db') → q.wrote now db a db'
  | .getAccount _, _, h => by
    simp only [tx, AutoTrader.getAccount, Tx.ok_bind, Tx.run_get, Tx.run_pure] at h
    obtain ⟨_, _, ⟨rfl, rfl⟩, -, rfl⟩ := h
    rfl
  | .listActive, _, h => by
    simp only [tx, AutoTrader.listActive, Tx.ok_bind, Tx.run_get, Tx.run_pure] at h
    obtain ⟨_, _, ⟨rfl, rfl⟩, -, rfl⟩ := h
    rfl
  | .getOpenTradesByAccount _, _, h => getOpenTradesByAccount_ok h
  | .acquireCloseLock _ _, _, h => acquireCloseLock_ok h
  | .releaseCloseLock _, _, h => releaseCloseLock_ok h
  | .persistOpenTrade _ _ _, _, h => persistOpenTradeTx_ok h
  | .persistClosedTrade _ _ _ _ _ _ _, _, h => persistClosedTradeTx_ok h
  | .selectUnsettled _, _, h => selectUnsettled_ok h
  | .closeTradeReconciled _ _ _ _ _ _ _, _, h => closeTradeReconciledTx_ok h
  | .applyOvernightFee _ _ _, _, h =>
    (applyFeeInner_ok h).imp And.right fun ⟨_, r, a, hr, hi, hs, ha, e⟩ => ⟨r, a, _, _, hr, hi, hs, ha, by decide, e⟩
  | .applySfdFee _ _ _ _, _, h =>
    (applyFeeInner_ok h).imp And.right fun ⟨_, r, a, hr, hi, hs, ha, e⟩ => ⟨r, a, _, _, hr, hi, hs, ha, by decide, e⟩
  | .applySwapFee _ _ _ _, _, h =>
    (applyFeeInner_ok h).imp And.right fun ⟨_, r, a, hr, hi, hs, ha, e⟩ => ⟨r, a, _, _, hr, hi, hs, ha, by decide, e⟩
  | .addFees _ _, _, h => addFees_ok h

/-! ## What a query does to one row -/

/-- What one query can do to a row that is there. -/
inductive RowStep (now : DateTime) (r : TradeRow) : Query → TradeRow → Prop
  | same {q : Query} : RowStep now r q r
  | lock {accountId : Uuid} : r.lockable accountId now →
      RowStep now r (.acquireCloseLock r.id accountId) (r.startClosing now)
  | reopen : r.status = .closing → RowStep now r (.releaseCloseLock r.id) r.reopen
  | settle {q : Query} {exitPrice : Decimal} {exitAt : DateTime} {pnlAmount : Decimal} {exitReason : ExitReason}
      {fees : Decimal} : r.status ≠ .closed → RowStep now r q (r.settle exitPrice exitAt pnlAmount exitReason fees)
  | charge {q : Query} (fee : Decimal) : RowStep now r q (r.charge fee)

section

variable {now : DateTime} {db db' : Db} {id : Uuid} {r r' : TradeRow} {q : Query}

theorem RowStep.terms (h : RowStep now r q r') : r'.terms = r.terms := by
  cases h <;> rfl

/-- A closed row stays closed, with the exit it was closed with. -/
theorem RowStep.closed (h : RowStep now r q r') (hr : r.status = .closed) :
    r'.status = .closed ∧ r'.exitPrice = r.exitPrice ∧ r'.exitAt = r.exitAt ∧ r'.exitReason = r.exitReason ∧
      r'.pnlAmount = r.pnlAmount := by
  cases h with
  | same => exact ⟨hr, rfl, rfl, rfl, rfl⟩
  | lock hl => simp [TradeRow.lockable, TradeRow.stale, hr] at hl
  | reopen hc => rw [hr] at hc; cases hc
  | settle hs => exact absurd hr hs
  | charge fee => exact ⟨hr, rfl, rfl, rfl, rfl⟩

/-- Writing the row `v` over the row `u` of its key. -/
theorem find?_set_row {u v : TradeRow} (hu : db.trades.find? v.id = some u) (huv : RowStep now u q v)
    (hr : db.trades.find? id = some r) : ∃ r', (db.trades.set v).find? id = some r' ∧ RowStep now r q r' := by
  rw [Lib.Table.find?_set hu]
  by_cases hid : id = v.id
  · subst hid
    rw [hu] at hr
    exact ⟨v, if_pos rfl, Option.some.inj hr ▸ huv⟩
  · exact ⟨r, by rw [if_neg hid, hr], .same⟩

theorem Query.wrote_row : ∀ {q : Query} {a : q.Ok}, q.wrote now db a db' → db.trades.find? id = some r →
    ∃ r', db'.trades.find? id = some r' ∧ RowStep now r q r'
  | .getAccount _, _, h, hr | .listActive, _, h, hr => by
    have h : db' = db := h
    exact ⟨r, by rw [h, hr], .same⟩
  | .getOpenTradesByAccount _, _, h, hr | .selectUnsettled _, _, h, hr => ⟨r, by rw [h.1, hr], .same⟩
  | .acquireCloseLock _ _, _, h, hr => by
    rcases h with ⟨u, hu, hl, -, rfl⟩ | ⟨-, rfl⟩
    · obtain rfl := Db.trade_id hu
      exact find?_set_row (v := u.startClosing now) hu (.lock hl) hr
    · exact ⟨r, hr, .same⟩
  | .releaseCloseLock _, _, h, hr => by
    rcases h with ⟨u, hu, hs, rfl⟩ | ⟨-, rfl⟩
    · obtain rfl := Db.trade_id hu
      exact find?_set_row (v := u.reopen) hu (.reopen hs) hr
    · exact ⟨r, hr, .same⟩
  | .persistOpenTrade _ trade _, _, h, hr => by
    obtain ⟨trades, a, ns, hi, -, -, rfl⟩ := h
    refine ⟨r, ?_, .same⟩
    have hne : id ≠ trade.id := by
      rintro rfl
      have := Lib.Table.insert_fresh hi
      rw [hr] at this; cases this
    rw [Lib.Table.find?_insert hi, if_neg hne, hr]
  | .persistClosedTrade _ _ _ _ _ _ _, _, h, hr => by
    obtain ⟨u, a, ns, hu, hs, -, rfl⟩ := h
    exact find?_set_row (v := u.settle _ _ _ _ _) (by rw [← Db.trade_id hu] at hu; exact hu) (.settle hs) hr
  | .closeTradeReconciled _ _ _ _ _ _ _, _, h, hr => by
    obtain ⟨u, a, hu, hs, -, rfl⟩ := h
    exact find?_set_row (v := u.settle _ _ _ _ _) (by rw [← Db.trade_id hu] at hu; exact hu) (.settle hs) hr
  | .applyOvernightFee _ _ fee, _, h, hr | .applySfdFee _ _ fee _, _, h, hr | .applySwapFee _ _ fee _, _, h, hr => by
    rcases h with rfl | ⟨u, a, k, at', hu, -, -, -, -, rfl⟩
    · exact ⟨r, hr, .same⟩
    · exact find?_set_row (v := u.charge fee) (by rw [← Db.trade_id hu] at hu; exact hu) (.charge fee) hr
  | .addFees _ fee, _, h, hr => by
    obtain ⟨u, hu, rfl⟩ := h
    exact find?_set_row (v := u.charge fee) (by rw [← Db.trade_id hu] at hu; exact hu) (.charge fee) hr

/-- Writing a row over one of its key adds no key. -/
theorem find?_set_none {u v : TradeRow} (hu : db.trades.find? v.id = some u) (hn : db.trades.find? id = none) :
    (db.trades.set v).find? id = none := by
  rw [Lib.Table.find?_set hu, if_neg fun hid => ?_, hn]
  rw [hid, hu] at hn
  cases hn

/-- Only `persist_open_trade` adds a row. -/
theorem Query.wrote_none : ∀ {q : Query} {a : q.Ok}, q.wrote now db a db' → db.trades.find? id = none →
    db'.trades.find? id = some r' →
      ∃ accountId trade margin, q = .persistOpenTrade accountId trade margin ∧ id = trade.id ∧ r' = ⟨trade, none⟩
  | .getAccount _, _, h, hn, hr | .listActive, _, h, hn, hr => by
    have h : db' = db := h
    rw [h, hn] at hr
    cases hr
  | .getOpenTradesByAccount _, _, h, hn, hr | .selectUnsettled _, _, h, hn, hr => by
    rw [h.1, hn] at hr
    cases hr
  | .acquireCloseLock _ _, _, h, hn, hr => by
    rcases h with ⟨u, hu, -, -, rfl⟩ | ⟨-, rfl⟩
    · obtain rfl := Db.trade_id hu
      exact absurd ((find?_set_none (v := u.startClosing now) hu hn).symm.trans hr) nofun
    · exact absurd (hn.symm.trans hr) nofun
  | .releaseCloseLock _, _, h, hn, hr => by
    rcases h with ⟨u, hu, -, rfl⟩ | ⟨-, rfl⟩
    · obtain rfl := Db.trade_id hu
      exact absurd ((find?_set_none (v := u.reopen) hu hn).symm.trans hr) nofun
    · exact absurd (hn.symm.trans hr) nofun
  | .persistOpenTrade accountId trade margin, _, h, hn, hr => by
    obtain ⟨trades, a, ns, hi, -, -, rfl⟩ := h
    have hr : trades.find? id = some r' := hr
    rw [Lib.Table.find?_insert hi] at hr
    split at hr
    · rename_i hid
      exact ⟨accountId, trade, margin, rfl, hid, (Option.some.inj hr).symm⟩
    · exact absurd (hn.symm.trans hr) nofun
  | .persistClosedTrade _ _ _ _ _ _ _, _, h, hn, hr => by
    obtain ⟨u, a, ns, hu, -, -, rfl⟩ := h
    rw [← Db.trade_id hu] at hu
    exact absurd ((find?_set_none (v := u.settle _ _ _ _ _) hu hn).symm.trans hr) nofun
  | .closeTradeReconciled _ _ _ _ _ _ _, _, h, hn, hr => by
    obtain ⟨u, a, hu, -, -, rfl⟩ := h
    rw [← Db.trade_id hu] at hu
    exact absurd ((find?_set_none (v := u.settle _ _ _ _ _) hu hn).symm.trans hr) nofun
  | .applyOvernightFee _ _ fee, _, h, hn, hr | .applySfdFee _ _ fee _, _, h, hn, hr
  | .applySwapFee _ _ fee _, _, h, hn, hr => by
    rcases h with rfl | ⟨u, a, k, at', hu, -, -, -, -, rfl⟩
    · exact absurd (hn.symm.trans hr) nofun
    · rw [← Db.trade_id hu] at hu
      exact absurd ((find?_set_none (v := u.charge fee) hu hn).symm.trans hr) nofun
  | .addFees _ fee, _, h, hn, hr => by
    obtain ⟨u, hu, rfl⟩ := h
    rw [← Db.trade_id hu] at hu
    exact absurd ((find?_set_none (v := u.charge fee) hu hn).symm.trans hr) nofun

/-- Where a row that is there after a query comes from. -/
theorem Query.row_of_wrote {a : q.Ok} (h : q.wrote now db a db') (hr : db'.trades.find? id = some r') :
    (∃ r, db.trades.find? id = some r ∧ RowStep now r q r') ∨
      ∃ accountId trade margin, q = .persistOpenTrade accountId trade margin ∧ id = trade.id ∧ r' = ⟨trade, none⟩ := by
  cases hold : db.trades.find? id with
  | none => exact .inr (Query.wrote_none h hold hr)
  | some r =>
    obtain ⟨u, hu, hs⟩ := Query.wrote_row h hold
    rw [hr] at hu
    exact .inl ⟨r, rfl, Option.some.inj hu ▸ hs⟩

end

end AutoTrader
