import AutoTrader.Db.Trades
import AutoTrader.Lib.Fallible

/-!
# What the paper tasks read

The tasks that charge paper trades list the accounts, read the open trades of each and apply a fee to each trade,
and others may write in between: a `DbRead` fails or finds the database as it is at that moment. `OpenIn` is a paper
trade that is open there; the lemmas on it say that it is listed (`OpenIn.listed`), found among the open trades of its
account (`OpenIn.found`) and charged (`OpenIn.charged`).
-/

namespace AutoTrader

/-- What a statement answers on a database. -/
def Tx.answer {α : Type} (x : Tx α) (now : DateTime) (db : Db) : Except Error α := (x.run now db).map Prod.fst

/-- A read of the database fails, or finds the database as it is at that moment. -/
abbrev DbRead := Except Error Db

variable {read : DbRead} {now : DateTime} {db : Db} {accountId : Uuid}

/-! ## Lists -/

theorem listActiveOrWithOpenTrades_ok {accounts : List TradingAccount}
    (h : (read >>= listActiveOrWithOpenTrades.answer now) = .ok accounts) :
    ∃ db, read = .ok db ∧ accounts.Perm (db.accounts.rows.filter fun a =>
      a.active || db.trades.rows.any fun r => r.accountId = a.id && r.status.unsettled) := by
  obtain ⟨db, hdb, hanswer⟩ := Lib.bind_eq_ok.mp h
  exact ⟨db, hdb, Except.ok.inj hanswer ▸ List.mergeSort_perm _ _⟩

theorem listed_distinct {accounts : List TradingAccount}
    (h : (read >>= listActiveOrWithOpenTrades.answer now) = .ok accounts) :
    accounts.Pairwise fun a b => a.id ≠ b.id := by
  obtain ⟨db, -, hperm⟩ := listActiveOrWithOpenTrades_ok h
  refine hperm.symm.pairwise ?_ fun hne => hne.symm
  exact (List.pairwise_map.mp db.accounts.nodup).filter _

theorem getOpenTradesByAccount_answer {trades : List Trade}
    (h : (read >>= (getOpenTradesByAccount accountId).answer now) = .ok trades) :
    ∃ db, read = .ok db ∧
      trades.Perm
        ((db.trades.rows.filter fun r => r.accountId = accountId && r.status = .open).map TradeRow.toTrade) := by
  obtain ⟨db, hdb, hanswer⟩ := Lib.bind_eq_ok.mp h
  exact ⟨db, hdb, Except.ok.inj hanswer ▸ List.mergeSort_perm _ _⟩

theorem open_distinct {trades : List Trade}
    (h : (read >>= (getOpenTradesByAccount accountId).answer now) = .ok trades) :
    trades.Pairwise fun a b => a.id ≠ b.id := by
  obtain ⟨db, -, hperm⟩ := getOpenTradesByAccount_answer h
  refine hperm.symm.pairwise ?_ fun hne => hne.symm
  rw [List.pairwise_map]
  exact (List.pairwise_map.mp db.trades.nodup).filter _

/-- Every open trade that is read is one of the account. -/
theorem open_owned {owner : Uuid → Uuid} (howned : ∀ db, read = .ok db → ∀ r ∈ db.trades.rows, r.accountId = owner r.id)
    {trades : List Trade} (h : (read >>= (getOpenTradesByAccount accountId).answer now) = .ok trades) {trade : Trade}
    (htrade : trade ∈ trades) : owner trade.id = accountId := by
  obtain ⟨db, hdb, hperm⟩ := getOpenTradesByAccount_answer h
  obtain ⟨r, hr, rfl⟩ := List.mem_map.mp (hperm.subset htrade)
  obtain ⟨hrow, haccount⟩ := List.mem_filter.mp hr
  have hsame : r.accountId = accountId := by simpa using (Bool.and_eq_true_iff.mp haccount).1
  exact (howned db hdb r hrow).symm.trans hsame

/-- The calls for all accounts are for different trades, where those for an account are for different trades of it. -/
theorem calls_distinct {γ : Type} {trade : γ → Trade} {owner : Uuid → Uuid} {calls : TradingAccount → List γ}
    {accounts : List TradingAccount} (haccounts : accounts.Pairwise fun a b => a.id ≠ b.id)
    (hcalls : ∀ pac, (calls pac).Pairwise (fun c d => (trade c).id ≠ (trade d).id) ∧
      ∀ c ∈ calls pac, owner (trade c).id = pac.id) :
    (accounts.flatMap calls).Pairwise fun c d => (trade c).id ≠ (trade d).id := by
  refine List.pairwise_flatMap.mpr ⟨fun pac _ => (hcalls pac).1, ?_⟩
  refine haccounts.imp fun {pac pac'} hne c hc d hd heq => absurd ?_ hne
  rw [← (hcalls pac).2 c hc, ← (hcalls pac').2 d hd, heq]

/-! ## Open trades -/

/-- The same trade: what is agreed on at the entry does not change. -/
structure SameTerms (found trade : Trade) : Prop where
  id : found.id = trade.id
  accountId : found.accountId = trade.accountId
  pair : found.pair = trade.pair
  direction : found.direction = trade.direction
  entryPrice : found.entryPrice = trade.entryPrice
  quantity : found.quantity = trade.quantity
  entryAt : found.entryAt = trade.entryAt

/-- The trade is open in a paper account of the exchange. -/
structure OpenIn (exchange : Exchange) (trade : Trade) (db : Db) : Prop where
  row : ∃ r, db.trades.find? trade.id = some r ∧ r.status = .open ∧ SameTerms r.toTrade trade
  account : ∃ a, db.accounts.find? trade.accountId = some a ∧ a.live = false ∧ a.exchange = exchange

section

variable {exchange : Exchange} {trade : Trade}

/-- The account of an open trade is listed. -/
theorem OpenIn.listed {accounts : List TradingAccount} (h : OpenIn exchange trade db)
    (hlist : (read >>= listActiveOrWithOpenTrades.answer now) = .ok accounts) (hdb : read = .ok db) :
    ∃ a ∈ accounts, a.live = false ∧ a.exchange = exchange ∧ a.id = trade.accountId := by
  obtain ⟨⟨r, hr, hstatus, hterms⟩, a, ha, hlive, hexchange⟩ := h
  obtain ⟨db', hdb', hperm⟩ := listActiveOrWithOpenTrades_ok hlist
  obtain rfl := Except.ok.inj (hdb'.symm.trans hdb)
  have hid := Db.account_id ha
  refine ⟨a, hperm.symm.subset (List.mem_filter.mpr ⟨Lib.Table.find?_mem ha, ?_⟩), hlive, hexchange, hid⟩
  rw [Bool.or_eq_true, List.any_eq_true]
  exact .inr ⟨r, Lib.Table.find?_mem hr, by simp [hterms.accountId, hid, hstatus]⟩

/-- An open trade is read among the open trades of its account. -/
theorem OpenIn.found (h : OpenIn exchange trade db) (hdb : read = .ok db) :
    ∃ trades, (read >>= (getOpenTradesByAccount trade.accountId).answer now) = .ok trades ∧
      ∃ found ∈ trades, SameTerms found trade := by
  obtain ⟨r, hr, hstatus, hterms⟩ := h.row
  rw [hdb]
  refine ⟨_, rfl, r.toTrade, ?_, hterms⟩
  rw [List.mem_mergeSort, List.mem_map]
  exact ⟨r, List.mem_filter.mpr ⟨Lib.Table.find?_mem hr, by simp [hterms.accountId, hstatus]⟩, rfl⟩

/-- A fee for an open trade is charged. -/
theorem OpenIn.charged (h : OpenIn exchange trade db) (fee : Decimal) (eventType : EventType)
    (occurredAt : Option DateTime) : ∃ balance,
      (applyFeeInner trade.accountId trade.id fee eventType occurredAt).answer now db = .ok (some balance) := by
  obtain ⟨⟨r, hr, hstatus, hterms⟩, a, ha, -⟩ := h
  refine ⟨a.currentBalance - fee, ?_⟩
  rw [Tx.answer, applyFeeInner_run hr hterms.accountId hstatus ha]
  rfl

end

end AutoTrader
