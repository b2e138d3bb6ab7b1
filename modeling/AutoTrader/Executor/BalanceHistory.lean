import AutoTrader.Db.Dashboard
import AutoTrader.Executor.Ledger
import AutoTrader.Executor.Settlement

/-!
# The balance history in every run

A balance moves with the margins that are locked and with what the journal says was realized, and with nothing
else (`Run.Of.gain`). So the last point of the balance history of an account is its balance with the margins of
its unsettled trades, and its evaluated balance is that point with the unrealized profit, but for the margins of
the trades that are being closed, which it leaves out (`history_kept`).
-/

namespace AutoTrader

open Lib (Config History Label Step)
open Lib.Table (find?_set sum_add sum_congr sum_insert)

variable {ε : Type} {E : ExchangeModel ε} {actors : Nat → Actor} {w₀ : World ε} {id : Uuid}

/-! ## What a query does -/

/-- All that was realized. -/
def Db.realized (db : Db) (id : Uuid) : Decimal := db.realizedOn id fun _ => true

/-- What an account has gained, with the margins that are locked, is what was realized. -/
def Db.excess (db : Db) (id : Uuid) : Decimal := db.gain id + db.total id TradeRow.locked - db.realized id

section

variable {now : DateTime} {db db' : Db}

theorem realized_cons (db : Db) (e : AccountEvent) (he : db'.accountEvents = e :: db.accountEvents) :
    db'.realized id = db.realized id + if e.accountId = id ∧ e.eventType.realizes then e.amount else 0 := by
  simp only [Db.realized, Db.realizedOn, Db.realizedEvents, he, List.filter_cons, List.filter_true]
  by_cases hid : e.accountId = id ∧ e.eventType.realizes
  · simp [hid, add_comm]
  · have hnot : (decide (e.accountId = id) && e.eventType.realizes) = false := by simpa using hid
    simp [hnot, hid]

theorem realized_same (he : db'.accountEvents = db.accountEvents) : db'.realized id = db.realized id := by
  simp only [Db.realized, Db.realizedOn, Db.realizedEvents, he]

theorem realizes_of_fee {kind : EventType}
    (h : kind ≠ .marginLock ∧ kind ≠ .marginRelease ∧ kind ≠ .tradeClose) : kind.realizes = true := by
  cases kind <;> simp_all [EventType.realizes]

/-- A write to one row that changes neither the margin it locks nor a balance. -/
theorem excess_set {u v : TradeRow} (hu : db.trades.find? v.id = some u) (hterms : v.terms = u.terms)
    (hlocked : v.locked = u.locked) (ht : db'.trades = db.trades.set v) (hacc : db'.accounts = db.accounts)
    (he : db'.accountEvents = db.accountEvents) : db'.excess id = db.excess id := by
  have hgain : db'.gain id = db.gain id := by simp only [Db.gain, hacc]
  simp only [Db.excess, total_set hu hterms ht, hgain, realized_same he, hlocked, sub_self, ite_self, add_zero]

/-- A fee is taken from the balance and realized. -/
theorem excess_fee {u : TradeRow} {a : TradingAccount} {e : AccountEvent} {fee : Decimal}
    (hu : db.trades.find? u.id = some u) (ha : db.accounts.find? u.accountId = some a)
    (ht : db'.trades = db.trades.set (u.charge fee))
    (hacc : db'.accounts = db.accounts.set { a with currentBalance := a.currentBalance - fee })
    (he : db'.accountEvents = e :: db.accountEvents) (hid : e.accountId = u.accountId) (hamount : e.amount = -fee)
    (hkind : e.eventType.realizes = true) : db'.excess id = db.excess id := by
  have hlocked : (u.charge fee).locked = u.locked := rfl
  simp only [Db.excess, total_set (v := u.charge fee) hu rfl ht, gain_set ha hacc, realized_cons db e he, hlocked, hid,
    hamount, hkind, and_true]
  split <;> ring

/-- A close moves the margin and the profit to the balance. -/
theorem excess_settle {u : TradeRow} {a : TradingAccount} {e e' : AccountEvent} {price pnl fees margin b : Decimal}
    {at' : DateTime} {reason : ExitReason} (hu : db.trades.find? u.id = some u)
    (ha : db.accounts.find? u.accountId = some a) (hs : u.status ≠ .closed) (hmargin : margin = u.margin)
    (ht : db'.trades = db.trades.set (u.settle price at' pnl reason fees))
    (hacc : db'.accounts = db.accounts.set { a with currentBalance := b })
    (hb : b = a.currentBalance + margin + pnl) (he : db'.accountEvents = e :: e' :: db.accountEvents)
    (hid : e.accountId = u.accountId) (hkind : e.eventType = .tradeClose) (hamount : e.amount = pnl)
    (hkind' : e'.eventType = .marginRelease) : db'.excess id = db.excess id := by
  have hcons : db'.realized id = db.realized id + if u.accountId = id then pnl else 0 := by
    let db₁ : Db := { db with accountEvents := e' :: db.accountEvents }
    have hrelease : db₁.realized id = db.realized id := by
      rw [realized_cons db e' rfl, hkind']
      simp [EventType.realizes]
    rw [realized_cons db₁ e he, hrelease, hid, hkind, hamount]
    simp [EventType.realizes]
  have hlocked : u.locked = u.margin := by simp [TradeRow.locked, hs]
  have hsettled : (u.settle price at' pnl reason fees).locked = 0 := by simp [TradeRow.locked, TradeRow.settle]
  simp only [Db.excess, total_set (v := u.settle price at' pnl reason fees) hu rfl ht, gain_set ha hacc, hcons,
    hlocked, hsettled, hb, hmargin]
  split <;> ring

theorem excess_wrote {q : Query} {a : q.Ok} (hm : q.movesMargin db) (h : q.wrote now db a db') :
    db'.excess id = db.excess id := by
  cases q with
  | getAccount _ | listActive =>
    have h : db' = db := h
    rw [h]
  | getOpenTradesByAccount _ | selectUnsettled _ => rw [h.1]
  | acquireCloseLock tradeId accountId =>
    rcases h with ⟨u, hu, hl, -, rfl⟩ | ⟨-, rfl⟩
    · obtain rfl := Db.trade_id hu
      have hopen : u.status ≠ .closed := fun hc => by simp [TradeRow.lockable, TradeRow.stale, hc] at hl
      refine excess_set (v := u.startClosing now) hu rfl ?_ rfl rfl rfl
      simp [TradeRow.locked, TradeRow.startClosing, hopen, Trade.margin]
    · rfl
  | releaseCloseLock tradeId =>
    rcases h with ⟨u, hu, hs, rfl⟩ | ⟨-, rfl⟩
    · obtain rfl := Db.trade_id hu
      refine excess_set (v := u.reopen) hu rfl ?_ rfl rfl rfl
      simp [TradeRow.locked, TradeRow.reopen, hs, Trade.margin]
    · rfl
  | addFees tradeId fee =>
    obtain ⟨u, hu, rfl⟩ := h
    obtain rfl := Db.trade_id hu
    exact excess_set (v := u.charge fee) hu rfl rfl rfl rfl rfl
  | applyOvernightFee _ _ fee | applySfdFee _ _ fee _ | applySwapFee _ _ fee _ =>
    rcases h with rfl | ⟨u, a, k, at', hu, haccount, -, ha, hkind, rfl⟩
    · rfl
    · obtain rfl := Db.trade_id hu
      rw [← haccount] at ha
      exact excess_fee hu ha rfl rfl rfl haccount.symm rfl (realizes_of_fee hkind)
  | persistClosedTrade accountId closed margin pnl price at' reason =>
    obtain ⟨u, a, ns, hu, hs, ha, rfl⟩ := h
    obtain ⟨haccount, hmargin⟩ := hm u hu
    rw [← Db.trade_id hu] at hu
    rw [← haccount] at ha
    exact excess_settle hu ha hs hmargin rfl rfl rfl rfl haccount.symm rfl rfl rfl
  | closeTradeReconciled tradeId accountId price at' pnl reason margin =>
    obtain ⟨u, a, hu, hs, ha, rfl⟩ := h
    obtain ⟨haccount, hmargin⟩ := hm u hu
    rw [← Db.trade_id hu] at hu
    rw [← haccount] at ha
    exact excess_settle hu ha hs hmargin rfl rfl rfl rfl haccount.symm rfl rfl rfl
  | persistOpenTrade accountId trade margin =>
    obtain ⟨trades, a, ns, hi, -, ha, rfl⟩ := h
    obtain ⟨hopen, haccount, hmargin⟩ := hm
    have hne : trade.status ≠ .closed := by rw [hopen]; decide
    simp only [Db.excess, Db.total]
    rw [gain_set ha rfl, sum_insert _ hi, haccount, realized_cons _ _ rfl]
    simp only [TradeRow.locked, hne, ↓reduceIte, hmargin, EventType.realizes, Bool.false_eq_true, and_false, add_zero]
    split <;> ring

end

/-! ## Runs -/

namespace Run

variable {h : Run ε} {l : Label Calls Move} {c : Config Calls (World ε) (Except Error Outcome)}

theorem Of.excess_step (hv : h.Of E w₀ actors) (hs : Step (worldSys E) h.last l c) :
    c.world.db.excess id = h.world.db.excess id := by
  rcases Of.step_cases hv hs with ⟨i, q, a, rfl, hq, hw, -⟩ | ⟨i, q, e, rfl, -, hw⟩ | ⟨j, k, rfl, hw⟩ | ⟨hw, -, -, -⟩
  · exact excess_wrote (hv.reads.moves hq) hw
  · rw [hw]
  · have hdrift : (setLeverage j k h.world.db).drift id = h.world.db.drift id := drift_setLeverage j k h.world.db
    have hgain : (setLeverage j k h.world.db).gain id = h.world.db.gain id := by
      simp only [Db.drift, Db.total, setLeverage_trades] at hdrift
      linarith
    rw [hw]
    simp only [Db.excess, Db.total, hgain, setLeverage_trades, realized_same (setLeverage_accountEvents j k _)]
  · rw [hw]

theorem Of.excess : ∀ {h : Run ε}, h.Of E w₀ actors → h.world.db.excess id = w₀.db.excess id
  | .start c, hv => by
    have hc : c = begin w₀ actors := hv
    rw [hc]
    rfl
  | .step _ _ _, hv => (excess_step hv.1 hv.2).trans (Of.excess hv.1)

/-- The initial balance of an account stays. -/
theorem Of.initialBalance {a₀ : TradingAccount} (ha₀ : w₀.db.accounts.find? id = some a₀) (hv : h.Of E w₀ actors) :
    ∃ a, h.world.db.accounts.find? id = some a ∧ a.initialBalance = a₀.initialBalance := by
  have kept : ∀ {db db' : Db} {account : TradingAccount} (changed : TradingAccount),
      (∃ a, db.accounts.find? id = some a ∧ a.initialBalance = a₀.initialBalance) →
      db.accounts.find? changed.id = some account → changed.initialBalance = account.initialBalance →
      db'.accounts = db.accounts.set changed →
      ∃ a, db'.accounts.find? id = some a ∧ a.initialBalance = a₀.initialBalance := by
    rintro db db' account changed ⟨a, ha, hinitial⟩ hfind hsame hset
    rw [hset, find?_set hfind]
    split
    · rename_i hid
      rw [hid, hfind] at ha
      obtain rfl := Option.some.inj ha
      exact ⟨changed, rfl, hsame.trans hinitial⟩
    · exact ⟨a, ha, hinitial⟩
  refine @Of.db_invariant _ E actors w₀ (fun db _ => ∃ a, db.accounts.find? id = some a ∧
    a.initialBalance = a₀.initialBalance) ⟨a₀, ha₀, rfl⟩ (fun i q a _ db db' _ ih _ hw => ?_)
    (fun _ _ _ _ _ ih _ => ih) (fun db _ j k ih => ?_) h hv
  · rcases accounts_wrote hw with hsame | ⟨account, b, ha, hset⟩
    · rwa [hsame]
    · exact kept { account with currentBalance := b } ih ha rfl hset
  · simp only [setLeverage]
    split
    · rename_i a hj
      obtain rfl := Db.account_id hj
      exact kept { a with leverage := k } ih hj rfl rfl
    · exact ih

/-- The balance of an account, with the margins that are locked, is its initial balance with what was realized. -/
theorem Of.booked (h₀ : w₀.db.Fresh) {a₀ : TradingAccount} (ha₀ : w₀.db.accounts.find? id = some a₀)
    (hbalance : a₀.currentBalance = a₀.initialBalance) (hv : h.Of E w₀ actors) (a : TradingAccount)
    (ha : h.world.db.accounts.find? id = some a) :
    a.currentBalance + h.world.db.total id TradeRow.locked = a₀.initialBalance + h.world.db.realized id := by
  have hstart : w₀.db.excess id = 0 := by
    have htotal : w₀.db.total id TradeRow.locked = 0 := by
      simp [Db.total, Lib.Table.sum, h₀.trades]
    have hrealized : w₀.db.realized id = 0 := by
      simp [Db.realized, Db.realizedOn, Db.realizedEvents, h₀.accountEvents]
    simp [Db.excess, Db.gain, ha₀, hbalance, htotal, hrealized]
  obtain ⟨a', ha', hinitial⟩ := hv.initialBalance ha₀
  obtain rfl := Option.some.inj (ha.symm.trans ha')
  have hexcess : h.world.db.excess id = w₀.db.excess id := hv.excess
  rw [hstart, Db.excess, Db.gain, ha] at hexcess
  simp only [hinitial] at hexcess
  linarith

end Run

/-! ## The balances that are shown -/

/-- The margin of a trade that is being closed. -/
def TradeRow.closingMargin (r : TradeRow) : Decimal := if r.status = .closing then r.margin else 0

/-- The margins of the open trades, and of those that are being closed. -/
theorem total_locked {db : Db} (h : ∀ t ∈ db.openTrades, t.accountId = id → 0 < t.leverage) :
    db.total id TradeRow.locked =
      ((db.openTrades.filter fun t => t.accountId = id ∧ t.leverage > 0).map Trade.margin).sum +
        db.total id TradeRow.closingMargin := by
  have hopen : ((db.openTrades.filter fun t => t.accountId = id ∧ t.leverage > 0).map Trade.margin).sum =
      db.total id fun r => if r.status = .open then r.margin else 0 := by
    have hfilter : (db.openTrades.filter fun t => t.accountId = id ∧ t.leverage > 0) =
        db.openTrades.filter fun t => t.accountId = id := by
      refine List.filter_congr fun t ht => decide_eq_decide.mpr ⟨And.left, fun hid => ⟨hid, h t ht hid⟩⟩
    rw [hfilter, Db.openTrades, List.filter_map, List.filter_filter, List.map_map, Db.total]
    refine (Lib.Table.sum_filter db.trades _ fun r => r.margin).trans (sum_congr fun r _ => ?_)
    by_cases hid : r.accountId = id <;> by_cases hs : r.status = .open <;> simp [hid, hs]
  rw [hopen, Db.total, Db.total, Db.total, ← sum_add]
  refine sum_congr fun r _ => ?_
  by_cases hid : r.accountId = id
  · cases hs : r.status <;> simp [hid, hs, TradeRow.locked, TradeRow.closingMargin]
  · simp [hid]

/-- In every run from a fresh database, the history of an account has every day from that of its first event up to
today once, in their order; the point of a day is the initial balance with all that was realized up to it; and the
last one, with no later events, is the balance with the margins of the unsettled trades. The evaluated balance is
that point with the unrealized profit, less the margins of the trades that are being closed, and it is the same in
the list of all accounts. The history is the one that `get_balance_history` lists for the account, while it is
active. -/
theorem history_kept (h₀ : w₀.db.Fresh) {a₀ : TradingAccount} (ha₀ : w₀.db.accounts.find? id = some a₀)
    (hbalance : a₀.currentBalance = a₀.initialBalance) {h : Run ε} (hv : h.Of E w₀ actors) {today : NaiveDate}
    (htoday : ∀ e ∈ h.world.db.accountEvents, e.accountId = id → e.date ≤ today)
    (hleverage : ∀ t ∈ h.world.db.openTrades, t.accountId = id → 0 < t.leverage) (candles : List PriceCandle) :
    let db := h.world.db
    let history := db.balanceHistory today id a₀.initialBalance
    ((history.map Prod.fst).Pairwise (· < ·) ∧
      ∀ date, date ∈ history.map Prod.fst ↔ (db.startDate id).getD today ≤ date ∧ date ≤ today) ∧
    (∀ date balance, (date, balance) ∈ history →
      balance = a₀.initialBalance + db.realizedOn id fun d => d ≤ date) ∧
    ∃ account balance value, db.accounts.find? id = some account ∧ history.getLast? = some (today, balance) ∧
      balance = account.currentBalance + db.total id TradeRow.locked ∧
      getEvaluatedBalance db candles id = some value ∧
      (getAllEvaluatedBalances db candles).lookup id = some value ∧
      value.evaluatedBalance = balance + value.unrealizedPnl - db.total id TradeRow.closingMargin ∧
      ∀ live, account.active → live.isNone ∨ live = some account.live →
        ⟨id, history⟩ ∈ getBalanceHistory db (fun _ => db) today live := by
  intro db history
  have hdates : history.map Prod.fst = db.historyDates today id := map_fst_balanceHistory _ _ _ _
  obtain ⟨account, ha, hinitial⟩ := hv.initialBalance ha₀
  obtain ⟨balance, hlast, hpoint⟩ : ∃ balance, history.getLast? = some (today, balance) ∧
      balance = a₀.initialBalance + db.realizedOn id fun _ => true := last_balanceHistory htoday
  have hbooked : balance = account.currentBalance + db.total id TradeRow.locked := by
    rw [hpoint, ← Db.realized, hv.booked h₀ ha₀ hbalance account ha]
  have hvalue := @getEvaluatedBalance_eq db candles id account ha
  refine ⟨⟨?_, fun date => ?_⟩, fun date b hb => mem_balanceHistory hb, account, balance, _, ha, hlast, hbooked, hvalue,
    (lookup_getAllEvaluatedBalances _ _ _).trans hvalue, ?_, fun live hactive hlive => ?_⟩
  · rw [hdates]
    exact pairwise_historyDates
  · rw [hdates]
    exact Lib.mem_numbers
  · rw [hbooked, total_locked hleverage]
    ring
  · have hlisted := mem_getBalanceHistory (fun _ => db) today ha hactive hlive
    rwa [hinitial] at hlisted

/-- The history of the account of the dry-run trade that is opened and closed. -/
theorem sampleSettlement_history : ∃ balance,
    (sampleSettlement.world.db.balanceHistory 0 1 1000).getLast? = some (0, balance) := by
  obtain ⟨-, -, _, balance, -, -, hlast, -⟩ := @history_kept Unit anyExchange _ ⟨sampleDb, (), 0⟩ 1 ⟨rfl, rfl⟩
    sampleAccount rfl rfl sampleSettlement (Run.play_of _ _ _ _) 0 (by decide +kernel) (by decide +kernel) []
  exact ⟨balance, hlast⟩

end AutoTrader
