import AutoTrader.Db.Queries
import AutoTrader.Db.Summary
import AutoTrader.Lib.Running

/-!
# The balances on the dashboard

`Db.balanceHistory` runs through the days from the first event of an account up to today and adds up what was
realized on each, and `getEvaluatedBalance` values the open trades of an account at the latest candle closes. A
point of the history is the initial balance with everything realized up to that day (`mem_balanceHistory`,
`last_balanceHistory`), and the balances of all accounts are those of each one (`lookup_getAllEvaluatedBalances`).
-/

namespace AutoTrader

open Lib (truncate numbers running)

/-! ## The balance history -/

/-- The events of `daily_delta`: a profit or loss, or a fee. -/
def EventType.realizes : EventType → Bool
  | .tradeClose | .overnightFee | .sfdFee | .swapFee => true
  | .marginLock | .marginRelease => false

/-- The day of an event. -/
def AccountEvent.date (e : AccountEvent) : NaiveDate := DateTime.dateNaive e.occurredAt

namespace Db

/-- The events of an account that realize something. -/
def realizedEvents (db : Db) (id : Uuid) : List AccountEvent :=
  db.accountEvents.filter fun e => e.accountId = id && e.eventType.realizes

/-- The sum of what was realized on the days with `p`. -/
def realizedOn (db : Db) (id : Uuid) (p : NaiveDate → Bool) : Decimal :=
  (((db.realizedEvents id).filter fun e => p e.date).map AccountEvent.amount).sum

/-- `MIN(DATE(occurred_at))` over all events of the account. -/
def startDate (db : Db) (id : Uuid) : Option NaiveDate :=
  ((db.accountEvents.filter fun e => e.accountId = id).map AccountEvent.date).min?

/-- The days of the history. -/
def historyDates (db : Db) (today : NaiveDate) (id : Uuid) : List NaiveDate :=
  numbers ((db.startDate id).getD today) today

/-- The points of one account. -/
def balanceHistory (db : Db) (today : NaiveDate) (id : Uuid) (initialBalance : Decimal) : List (NaiveDate × Decimal) :=
  running initialBalance ((db.historyDates today id).map fun date => (date, db.realizedOn id fun d => d = date))

end Db

/-- The balance history of an account. -/
structure BalanceHistoryAccount where
  accountId : Uuid
  data : List (NaiveDate × Decimal)
  deriving DecidableEq, Repr

/-- The history of each active account; each is read on its own, of the database `read` gives for it. -/
def getBalanceHistory (db : Db) (read : Uuid → Db) (today : NaiveDate) (live : Option Bool) :
    List BalanceHistoryAccount :=
  let accounts := (db.accounts.rows.filter fun a => a.active && (live.isNone || live = some a.live)).mergeSort
    fun a b => a.createdAt ≤ b.createdAt
  accounts.map fun a => ⟨a.id, (read a.id).balanceHistory today a.id a.initialBalance⟩

/-- An active account of the kind that is asked for is listed with its own history. -/
theorem mem_getBalanceHistory {db : Db} {id : Uuid} {account : TradingAccount} (read : Uuid → Db) (today : NaiveDate)
    {live : Option Bool} (ha : db.accounts.find? id = some account) (hactive : account.active)
    (hlive : live.isNone ∨ live = some account.live) :
    ⟨id, (read id).balanceHistory today id account.initialBalance⟩ ∈ getBalanceHistory db read today live := by
  obtain rfl := Db.account_id ha
  refine List.mem_map.mpr ⟨account, List.mem_mergeSort.mpr (List.mem_filter.mpr ⟨Lib.Table.find?_mem ha, ?_⟩), rfl⟩
  simpa [hactive] using hlive

section

variable {db : Db} {today : NaiveDate} {id : Uuid} {initialBalance : Decimal}

/-- The day of an event is not before the first one. -/
theorem startDate_le {e : AccountEvent} (he : e ∈ db.realizedEvents id) : (db.startDate id).getD today ≤ e.date := by
  have hmem : e.date ∈ (db.accountEvents.filter fun e => e.accountId = id).map AccountEvent.date := by
    simp only [Db.realizedEvents, List.mem_filter, Bool.and_eq_true] at he
    exact List.mem_map_of_mem (List.mem_filter.mpr ⟨he.1, he.2.1⟩)
  rw [Db.startDate]
  rcases hmin : ((db.accountEvents.filter fun e => e.accountId = id).map AccountEvent.date).min? with _ | start
  · rw [List.min?_eq_none_iff] at hmin
    rw [hmin] at hmem
    cases hmem
  · rw [hmin]
    exact (List.min?_eq_some_iff.mp hmin).2 _ hmem

@[simp] theorem map_fst_balanceHistory (db : Db) (today : NaiveDate) (id : Uuid) (initialBalance : Decimal) :
    (db.balanceHistory today id initialBalance).map Prod.fst = db.historyDates today id := by
  simp only [Db.balanceHistory, Lib.map_fst_running, List.map_map]
  exact List.map_id _

/-- What was realized on the days of a list without repetition. -/
theorem sum_realizedOn {dates : List NaiveDate} (h : dates.Nodup) :
    ((dates.map fun date => (date, db.realizedOn id fun d => d = date)).map Prod.snd).sum =
      db.realizedOn id fun d => d ∈ dates := by
  rw [List.map_map]
  exact Lib.sum_fibres AccountEvent.date AccountEvent.amount (db.realizedEvents id) h

theorem realizedOn_congr {p q : NaiveDate → Bool} (h : ∀ e ∈ db.realizedEvents id, p e.date = q e.date) :
    db.realizedOn id p = db.realizedOn id q := by
  rw [Db.realizedOn, List.filter_congr h, ← Db.realizedOn]

theorem pairwise_historyDates : (db.historyDates today id).Pairwise (· < ·) := Lib.pairwise_numbers _ _

/-- A point is the initial balance with all that was realized up to its day. -/
theorem mem_balanceHistory {date : NaiveDate} {balance : Decimal}
    (h : (date, balance) ∈ db.balanceHistory today id initialBalance) :
    balance = initialBalance + db.realizedOn id fun d => d ≤ date := by
  have hdate : date ∈ db.historyDates today id := by
    rw [← map_fst_balanceHistory db today id initialBalance]
    exact List.mem_map_of_mem h
  have hfst : ((db.historyDates today id).map fun date => (date, db.realizedOn id fun d => d = date)).map Prod.fst =
      db.historyDates today id := by
    rw [List.map_map]
    exact List.map_id _
  have hbalance := Lib.mem_running (by rw [hfst]; exact pairwise_historyDates) h
  rw [List.filter_map] at hbalance
  have hnodup : ((db.historyDates today id).filter fun d => d ≤ date).Nodup :=
    (pairwise_historyDates.imp fun hlt => ne_of_lt hlt).filter _
  rw [hbalance]
  congr 1
  refine (sum_realizedOn hnodup).trans (realizedOn_congr fun e he => ?_)
  refine decide_eq_decide.mpr ?_
  simp only [List.mem_filter, decide_eq_true_eq]
  refine ⟨And.right, fun hle => ⟨?_, hle⟩⟩
  exact Lib.mem_numbers.mpr ⟨startDate_le he, hle.trans (Lib.mem_numbers.mp hdate).2⟩

/-- Where no event is of a later day, the last point is of today, and holds all that was realized. -/
theorem last_balanceHistory (h : ∀ e ∈ db.accountEvents, e.accountId = id → e.date ≤ today) :
    ∃ balance, (db.balanceHistory today id initialBalance).getLast? = some (today, balance) ∧
      balance = initialBalance + db.realizedOn id fun _ => true := by
  have hstart : (db.startDate id).getD today ≤ today := by
    rcases hmin : db.startDate id with _ | start
    · exact Int.le_refl today
    · obtain ⟨e, he, rfl⟩ := List.mem_map.mp (List.min?_mem hmin)
      rw [List.mem_filter] at he
      exact h e he.1 (of_decide_eq_true he.2)
  have hlast : (db.historyDates today id).getLast? = some today := Lib.getLast?_numbers hstart
  obtain ⟨⟨date, balance⟩, hpoint, rfl⟩ :
      ∃ point, (db.balanceHistory today id initialBalance).getLast? = some point ∧ point.1 = today := by
    rw [← map_fst_balanceHistory db today id initialBalance, List.getLast?_map, Option.map_eq_some_iff] at hlast
    exact hlast
  refine ⟨balance, hpoint, ?_⟩
  rw [mem_balanceHistory (List.mem_of_getLast? hpoint)]
  congr 1
  refine realizedOn_congr fun e he => ?_
  simp only [Db.realizedEvents, List.mem_filter, Bool.and_eq_true, decide_eq_true_eq] at he
  exact decide_eq_true (h e he.1 he.2.1)

end

/-! ## Evaluated balances -/

/-- A row of `price_candles`. -/
structure PriceCandle where
  exchange : Exchange
  pair : Pair
  timestamp : DateTime
  close : Decimal
  deriving DecidableEq, Repr

/-- The close of the newest candle. -/
def latestPrice (candles : List PriceCandle) (exchange : Exchange) (pair : Pair) : Option Decimal :=
  (((candles.filter fun c => c.exchange = exchange && c.pair = pair).mergeSort
    fun c c' => c'.timestamp ≤ c.timestamp).head?).map PriceCandle.close

/-- The profit or loss of a trade at a price, truncated. -/
def Trade.unrealizedYen (t : Trade) (price : Decimal) : Decimal := truncate (t.valued price).unrealizedPnl

/-- The balance of an account with its open profits. -/
structure EvaluatedBalance where
  currentBalance : Decimal
  unrealizedPnl : Decimal
  evaluatedBalance : Decimal
  deriving DecidableEq, Repr

/-- `status = 'open'`. -/
def Db.openTrades (db : Db) : List Trade := (db.trades.rows.filter fun r => r.status = .open).map TradeRow.toTrade

/-- What an open trade adds to `open_pnl`. -/
def openPnl (candles : List PriceCandle) (t : Trade) : Decimal :=
  t.unrealizedYen ((latestPrice candles t.exchange t.pair).getD t.entryPrice)

/-- The sums of the groups, by account. -/
def sumByAccount (amount : Trade → Decimal) (trades : List Trade) : List (Uuid × Decimal) :=
  (Lib.groupBy Trade.accountId trades).map fun (id, trades) => (id, (trades.map amount).sum)

/-- The balance with the margins and the profits of the open trades. -/
def evaluate (account : TradingAccount) (pnls margins : List (Uuid × Decimal)) : EvaluatedBalance :=
  let unrealized := (pnls.lookup account.id).getD 0
  ⟨account.currentBalance, unrealized, account.currentBalance + (margins.lookup account.id).getD 0 + unrealized⟩

/-- The evaluated balance of the account, if it exists. -/
def getEvaluatedBalance (db : Db) (candles : List PriceCandle) (id : Uuid) : Option EvaluatedBalance :=
  let trades := db.openTrades.filter fun t => t.accountId = id
  let pnls := sumByAccount (openPnl candles) trades
  let margins := sumByAccount Trade.margin (trades.filter fun t => t.leverage > 0)
  (db.accounts.find? id).map fun account => evaluate account pnls margins

/-- The evaluated balance of each account. -/
def getAllEvaluatedBalances (db : Db) (candles : List PriceCandle) : List (Uuid × EvaluatedBalance) :=
  let pnls := sumByAccount (openPnl candles) db.openTrades
  let margins := sumByAccount Trade.margin (db.openTrades.filter fun t => t.leverage > 0)
  db.accounts.rows.map fun account => (account.id, evaluate account pnls margins)

section

variable {db : Db} {candles : List PriceCandle} {id : Uuid}

/-- The sum of an account, which is zero where it has no trades. -/
theorem lookup_sumByAccount (amount : Trade → Decimal) (trades : List Trade) (id : Uuid) :
    ((sumByAccount amount trades).lookup id).getD 0 = ((trades.filter fun t => t.accountId = id).map amount).sum := by
  have hlookup : ∀ buckets : List (Uuid × List Trade),
      (buckets.map fun (k, bucket) => (k, (bucket.map amount).sum)).lookup id =
        (buckets.lookup id).map fun bucket => (bucket.map amount).sum := by
    intro buckets
    induction buckets with
    | nil => rfl
    | cons b buckets ih =>
      obtain ⟨k, bucket⟩ := b
      simp only [List.map_cons, List.lookup_cons, ih]
      split <;> rfl
  have hbucket := @Lib.lookup_groupBy _ _ _ Trade.accountId trades id
  rw [sumByAccount, hlookup, hbucket]
  split
  · rename_i hnil
    rw [hnil]
    rfl
  · rfl

theorem getEvaluatedBalance_eq {account : TradingAccount} (ha : db.accounts.find? id = some account) :
    getEvaluatedBalance db candles id = some {
      currentBalance := account.currentBalance
      unrealizedPnl := ((db.openTrades.filter fun t => t.accountId = id).map (openPnl candles)).sum
      evaluatedBalance := account.currentBalance +
        ((db.openTrades.filter fun t => t.accountId = id ∧ t.leverage > 0).map Trade.margin).sum +
        ((db.openTrades.filter fun t => t.accountId = id).map (openPnl candles)).sum } := by
  obtain rfl := Db.account_id ha
  have hfilter : (db.openTrades.filter fun t =>
      t.accountId = account.id && (t.leverage > 0 && t.accountId = account.id)) =
      db.openTrades.filter fun t => t.accountId = account.id && t.leverage > 0 := by
    refine List.filter_congr fun t _ => ?_
    rw [Bool.and_left_comm, Bool.and_self, Bool.and_comm]
  simp only [getEvaluatedBalance, ha, Option.map_some, evaluate, lookup_sumByAccount, List.filter_filter,
    Bool.and_self, Bool.decide_and, hfilter]

/-- The balances of all accounts are those of each account. -/
theorem lookup_getAllEvaluatedBalances (db : Db) (candles : List PriceCandle) (id : Uuid) :
    (getAllEvaluatedBalances db candles).lookup id = getEvaluatedBalance db candles id := by
  have hlookup : ∀ rows : List TradingAccount, ∀ f : TradingAccount → EvaluatedBalance,
      (rows.map fun a => (a.id, f a)).lookup id = (rows.find? fun a => a.id = id).map f := by
    intro rows f
    induction rows with
    | nil => rfl
    | cons a rows ih =>
      simp only [List.map_cons, List.lookup_cons, List.find?_cons, ih]
      by_cases ha : a.id = id
      · simp [ha]
      · have hne : (id == a.id) = false := by simpa using Ne.symm ha
        simp [ha, hne]
  rw [getAllEvaluatedBalances, hlookup]
  show (db.accounts.find? id).map _ = _
  rcases ha : db.accounts.find? id with _ | account
  · simp only [getEvaluatedBalance, ha, Option.map_none]
  · obtain rfl := Db.account_id ha
    rw [getEvaluatedBalance_eq ha]
    simp only [Option.map_some, evaluate, lookup_sumByAccount, List.filter_filter, Bool.decide_and]

end

end AutoTrader
