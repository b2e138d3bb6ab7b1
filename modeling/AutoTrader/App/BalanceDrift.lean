import AutoTrader.App.ClosingMargin
import AutoTrader.App.PaperReads
import AutoTrader.App.Reconciled
import AutoTrader.Executor.BalanceHistory

/-!
# Balance drift

`checkLiveAccounts` compares what the exchange says a live account is worth with its balance, the margins of its
open trades and their unrealized profit. In every run this is the initial balance with all that was realized and the
unrealized profit, so an alert comes exactly where the two differ by more than the threshold, and none comes while a
trade of the account is being closed (`drift_found_iff`).
-/

namespace AutoTrader

variable {ε : Type} {E : ExchangeModel ε} {actors : Nat → Actor} {w₀ : World ε} {id : Uuid}

/-! ## The check -/

/-- More than 1 % of the exchange equity, and more than 500 yen. -/
def isDrift (exchangeEquity botEquity : Decimal) : Bool :=
  let threshold := max (exchangeEquity * (1 / 100)) 500
  |exchangeEquity - botEquity| > threshold

/-- The trades that the equity is reckoned from, or that a close is in progress. -/
inductive EquityInput where
  | «open» (trades : List Trade)
  | closeInProgress (closing : Nat)

/-- The equity is not reckoned while a trade is closing. -/
def splitForEquity (trades : List Trade) : EquityInput :=
  let closing := (trades.filter fun t => t.status = .closing).length
  if closing > 0 then .closeInProgress closing else .open trades

/-- The collateral that the exchange reports. -/
structure Collateral where
  collateral : Decimal
  openPositionPnl : Decimal
  deriving DecidableEq, Repr

/-- An alert over an account. -/
structure DriftAlert where
  accountId : Uuid
  exchange : Exchange
  exchangeEquity : Decimal
  botEquity : Decimal
  deriving DecidableEq, Repr

/-- One check, with what it reads. -/
structure BalanceDriftCheck where
  /-- Whether there is an API of the exchange. -/
  apis : Exchange → Bool
  liveForcesDryRun : Bool
  now : DateTime
  /-- The database when the accounts are listed. -/
  accounts : DbRead
  collateral : Uuid → Except ApiError Collateral
  /-- The database and the ticks when the trades of an account are read. -/
  trades : Uuid → Except Error Snapshot

namespace BalanceDriftCheck

variable (t : BalanceDriftCheck)

/-- The equity that the exchange reports. -/
def fetchExchangeEquity (account : TradingAccount) : Option Decimal :=
  match t.collateral account.id with
  | .error _ => none
  | .ok collateral => some (collateral.collateral + collateral.openPositionPnl)

/-- The open trades, with the ticks; `none` while a trade is closing. -/
def loadOpenTradesForEquity (account : TradingAccount) : Option (Snapshot × List Trade) :=
  match t.trades account.id with
  | .error _ => none
  | .ok m =>
    match splitForEquity (listOpenOrClosingByAccount m.db account.id) with
    | .closeInProgress _ => none
    | .open openTrades => some (m, openTrades)

/-- The equity that the bot reckons: the balance with margins and profits of the open trades. -/
def computeBotEquity (account : TradingAccount) (m : Snapshot) (openTrades : List Trade) : Option Decimal :=
  ((buildCloseSidePositions openTrades []).eval m.answer).1.map fun positions =>
    let required := (positions.map OpenPosition.requiredMargin).sum
    let unrealized := (positions.map OpenPosition.unrealizedPnl).sum
    account.currentBalance + required + unrealized

/-- An alert, where the two equities are apart. -/
def buildDriftAlert (account : TradingAccount) (exchangeEquity botEquity : Decimal) : Option DriftAlert :=
  if !isDrift exchangeEquity botEquity then none
  else some ⟨account.id, account.exchange, exchangeEquity, botEquity⟩

/-- The check of one account. -/
def checkAccount (account : TradingAccount) : Option DriftAlert :=
  if !t.apis account.exchange then none
  else
    (t.fetchExchangeEquity account).bind fun exchangeEquity =>
      (t.loadOpenTradesForEquity account).bind fun read =>
        (computeBotEquity account read.1 read.2).bind fun botEquity =>
          buildDriftAlert account exchangeEquity botEquity

/-- The check of all live accounts. -/
def checkLiveAccounts : List DriftAlert :=
  if t.liveForcesDryRun then []
  else
    match t.accounts >>= listActiveOrWithOpenTrades.answer t.now with
    | .error _ => []
    | .ok accounts =>
      (accounts.filter fun a => !effectiveDryRun a.live t.liveForcesDryRun).filterMap t.checkAccount

end BalanceDriftCheck

/-! ## What is found -/

/-- The open trades of the account. -/
def Db.openTradesOf (db : Db) (id : Uuid) : List Trade := db.openTrades.filter fun u => u.accountId = id

/-- No trade of the account is being closed. -/
def Db.NoneClosing (db : Db) (id : Uuid) : Prop := ∀ r ∈ db.trades.rows, r.accountId = id → r.status ≠ .closing

instance (db : Db) (id : Uuid) : Decidable (db.NoneClosing id) :=
  inferInstanceAs (Decidable (∀ r ∈ db.trades.rows, _))

/-- What the account is worth: its initial balance with all that was realized, and its open trades at the price at
which they could be closed. -/
def Snapshot.equity (m : Snapshot) (id : Uuid) (initialBalance : Decimal) : Decimal :=
  initialBalance + m.db.realized id +
    ((m.db.openTradesOf id).map fun u => (u.valued (m.closePrice u)).unrealizedPnl).sum

theorem isDrift_iff {exchangeEquity botEquity : Decimal} : isDrift exchangeEquity botEquity = true ↔
    max (exchangeEquity * (1 / 100)) 500 < |exchangeEquity - botEquity| := decide_eq_true_iff

theorem splitForEquity_open {trades : List Trade} (h : ∀ u ∈ trades, u.status ≠ .closing) :
    splitForEquity trades = .open trades := by
  have hnone : (trades.filter fun t => t.status = .closing) = [] :=
    List.filter_eq_nil_iff.mpr fun u hu => by simpa using h u hu
  simp [splitForEquity, hnone]

theorem splitForEquity_closing {trades : List Trade} {u : Trade} (hu : u ∈ trades) (hs : u.status = .closing) :
    ∃ n, splitForEquity trades = .closeInProgress n := by
  have hpos : 0 < (trades.filter fun t => t.status = .closing).length :=
    List.length_pos_of_mem (List.mem_filter.mpr ⟨hu, by simp [hs]⟩)
  exact ⟨_, if_pos hpos⟩

/-- The unsettled trades of an account without a closing trade are its open ones. -/
theorem openTradesOf_eq {db : Db} (h : db.NoneClosing id) : db.openTradesOf id =
    (db.trades.rows.filter fun r => r.accountId = id ∧ r.status.unsettled).map TradeRow.toTrade := by
  simp only [Db.openTradesOf, Db.openTrades, List.filter_map, List.filter_filter]
  refine congrArg _ (List.filter_congr fun r hr => ?_)
  have hclosing := h r hr
  by_cases hid : r.accountId = id
  · cases hs : r.status
    · simp [hid, TradeStatus.unsettled]
    · exact absurd hs (hclosing hid)
    · simp [hid, TradeStatus.unsettled]
  · simp [hid]

namespace BalanceDriftCheck

variable {t : BalanceDriftCheck} {account : TradingAccount} {m : Snapshot}

theorem loadOpenTradesForEquity_eq (hread : t.trades account.id = .ok m) {read : Snapshot × List Trade} :
    t.loadOpenTradesForEquity account = some read ↔ m.db.NoneClosing account.id ∧ read.1 = m ∧
      read.2 = listOpenOrClosingByAccount m.db account.id := by
  have hperm := listOpenOrClosing_perm m.db account.id
  have hmem : ∀ u ∈ listOpenOrClosingByAccount m.db account.id,
      ∃ r ∈ m.db.trades.rows, r.accountId = account.id ∧ r.toTrade = u := fun u hu => by
    obtain ⟨r, hr, hru⟩ := List.mem_map.mp (hperm.subset hu)
    obtain ⟨hrow, hp⟩ := List.mem_filter.mp hr
    exact ⟨r, hrow, (of_decide_eq_true hp).1, hru⟩
  simp only [loadOpenTradesForEquity, hread]
  by_cases hclosing : m.db.NoneClosing account.id
  · have hopen := splitForEquity_open fun u hu => by
      obtain ⟨r, hr, hid, rfl⟩ := hmem u hu
      exact hclosing r hr hid
    simp only [hopen, hclosing, Option.some.injEq, true_and, Prod.ext_iff]
    exact and_congr eq_comm eq_comm
  · obtain ⟨n, hn⟩ : ∃ n, splitForEquity (listOpenOrClosingByAccount m.db account.id) = .closeInProgress n := by
      simp only [Db.NoneClosing, not_forall, not_not] at hclosing
      obtain ⟨r, hr, hid, hs⟩ := hclosing
      refine splitForEquity_closing (u := r.toTrade) (hperm.symm.subset (List.mem_map_of_mem ?_)) hs
      exact List.mem_filter.mpr ⟨hr, by simp [hid, hs]⟩
    simp only [hn, hclosing, reduceCtorEq, false_and]

theorem computeBotEquity_eq {trades : List Trade} {botEquity : Decimal} :
    computeBotEquity account m trades = some botEquity ↔ (∀ u ∈ trades, (m.tick u.exchange u.pair).isSome) ∧
      botEquity = account.currentBalance + (trades.map Trade.margin).sum +
        (trades.map fun u => (u.valued (m.closePrice u)).unrealizedPnl).sum := by
  obtain ⟨q, hq, hbuild⟩ := Snapshot.eval_observing
    (Snapshot.buildCloseSidePositions_observing (m := m) (p := True) trades [] fun _ _ _ _ h => by cases h)
  have hpositions := (hbuild hq).1
  simp only [computeBotEquity, hpositions]
  by_cases hknown : ∀ u ∈ trades, (m.tick u.exchange u.pair).isSome
  · simp only [Snapshot.mapM_closeSide_of_known trades hknown, Option.map_some, List.map_map, Option.some.injEq]
    exact ⟨fun h => ⟨hknown, h.symm⟩, fun h => h.2.symm⟩
  · have hnone : trades.mapM m.closeSide = none := by
      clear hbuild hpositions
      induction trades with
      | nil => exact absurd (fun u hu => by cases hu) hknown
      | cons u trades ih =>
        rcases hu : m.tick u.exchange u.pair with _ | tick
        · simp [List.mapM_cons, Snapshot.closeSide, hu]
        · have hrest : ¬ ∀ v ∈ trades, (m.tick v.exchange v.pair).isSome := fun h => hknown fun v hv => by
            rcases List.mem_cons.mp hv with rfl | hv
            · rw [hu]; rfl
            · exact h v hv
          simp [List.mapM_cons, ih hrest]
    simp only [hnone, Option.map_none, reduceCtorEq, hknown, false_and]

theorem buildDriftAlert_of_drift {exchangeEquity botEquity : Decimal} (h : isDrift exchangeEquity botEquity) :
    buildDriftAlert account exchangeEquity botEquity =
      some ⟨account.id, account.exchange, exchangeEquity, botEquity⟩ := by
  simp [buildDriftAlert, h]

/-- An alert of an account. -/
theorem checkAccount_isSome (hread : t.trades account.id = .ok m) :
    (t.checkAccount account).isSome ↔ t.apis account.exchange ∧ m.db.NoneClosing account.id ∧
      (∀ u ∈ m.db.openTradesOf account.id, (m.tick u.exchange u.pair).isSome) ∧
      ∃ collateral, t.collateral account.id = .ok collateral ∧
        isDrift (collateral.collateral + collateral.openPositionPnl)
          (account.currentBalance + ((m.db.openTradesOf account.id).map Trade.margin).sum +
            ((m.db.openTradesOf account.id).map fun u => (u.valued (m.closePrice u)).unrealizedPnl).sum) := by
  have hopen : m.db.NoneClosing account.id →
      (listOpenOrClosingByAccount m.db account.id).Perm (m.db.openTradesOf account.id) := fun hclosing => by
    rw [openTradesOf_eq hclosing]
    exact listOpenOrClosing_perm _ _
  have hsum : m.db.NoneClosing account.id → ∀ f : Trade → Decimal,
      ((listOpenOrClosingByAccount m.db account.id).map f).sum = ((m.db.openTradesOf account.id).map f).sum :=
    fun hclosing f =>
      ((hopen hclosing).map f).sum_eq
  simp only [checkAccount, Bool.not_eq_true']
  cases hapi : t.apis account.exchange with
  | false => simp
  | true =>
    simp only [Bool.true_eq_false, ↓reduceIte, true_and, Option.isSome_iff_exists, Option.bind_eq_some_iff,
      loadOpenTradesForEquity_eq hread, computeBotEquity_eq, fetchExchangeEquity]
    constructor
    · rintro ⟨alert, exchangeEquity, hequity, read, ⟨hclosing, hm, hlist⟩, botEquity, ⟨hknown, hbot⟩, halert⟩
      rw [hlist] at hknown hbot
      rw [hm] at hknown hbot
      refine ⟨hclosing, fun u hu => hknown u ((hopen hclosing).mem_iff.mpr hu), ?_⟩
      rcases hcollateral : t.collateral account.id with e | collateral
      · simp [hcollateral] at hequity
      · simp only [hcollateral, Option.some.injEq] at hequity
        refine ⟨collateral, rfl, ?_⟩
        rw [← hsum hclosing Trade.margin, ← hsum hclosing, ← hbot, hequity]
        by_contra hnot
        rw [Bool.not_eq_true] at hnot
        simp [buildDriftAlert, hnot] at halert
    · rintro ⟨hclosing, hknown, collateral, hcollateral, hdrift⟩
      rw [← hsum hclosing Trade.margin, ← hsum hclosing] at hdrift
      exact ⟨_, _, by rw [hcollateral], ⟨m, _⟩, ⟨hclosing, rfl, rfl⟩, _,
        ⟨fun u hu => hknown u ((hopen hclosing).mem_iff.mp hu), rfl⟩, buildDriftAlert_of_drift hdrift⟩

theorem checkAccount_id {alert : DriftAlert} (h : t.checkAccount account = some alert) :
    alert.accountId = account.id := by
  simp only [checkAccount, Bool.not_eq_true'] at h
  split at h
  · cases h
  simp only [Option.bind_eq_some_iff, buildDriftAlert] at h
  obtain ⟨exchangeEquity, -, read, -, botEquity, -, h⟩ := h
  split at h
  · cases h
  · exact Option.some.inj h ▸ rfl

/-- The accounts with an alert: those that are listed, live and found to drift. -/
theorem mem_checkLiveAccounts {db₁ : Db} (hlist : t.accounts = .ok db₁)
    (ha : db₁.accounts.find? id = some account) :
    (∃ alert ∈ t.checkLiveAccounts, alert.accountId = id) ↔ t.liveForcesDryRun = false ∧ account.live ∧
      (account.active ∨ ∃ r ∈ db₁.trades.rows, r.accountId = id ∧ r.status ≠ .closed) ∧
      (t.checkAccount account).isSome := by
  obtain rfl := Db.account_id ha
  have hanswer : (t.accounts >>= listActiveOrWithOpenTrades.answer t.now) =
      listActiveOrWithOpenTrades.answer t.now db₁ := by rw [hlist]; rfl
  obtain ⟨accounts, haccounts⟩ : ∃ accounts, listActiveOrWithOpenTrades.answer t.now db₁ = .ok accounts := ⟨_, rfl⟩
  obtain ⟨db, hdb, hperm⟩ := listActiveOrWithOpenTrades_ok (hanswer.trans haccounts)
  obtain rfl : db₁ = db := Except.ok.inj (hlist.symm.trans hdb)
  have hmem : account ∈ accounts ↔
      account.active ∨ ∃ r ∈ db₁.trades.rows, r.accountId = account.id ∧ r.status ≠ .closed := by
    rw [hperm.mem_iff, List.mem_filter]
    simp [Lib.Table.find?_mem ha]
  have hunique : ∀ a ∈ accounts, a.id = account.id → a = account := fun a hin hid => by
    have hrow := (List.mem_filter.mp (hperm.subset hin)).1
    rw [Lib.Table.mem_iff_find?, hid] at hrow
    exact Option.some.inj (hrow.symm.trans ha)
  simp only [checkLiveAccounts, hanswer, haccounts]
  cases hforce : t.liveForcesDryRun with
  | true => simp
  | false =>
    simp only [Bool.false_eq_true, ↓reduceIte, effectiveDryRun, Bool.or_false, Bool.not_not, List.mem_filterMap,
      List.mem_filter, true_and, Option.isSome_iff_exists, ← hmem]
    constructor
    · rintro ⟨alert, ⟨a, ⟨hin, hlive⟩, halert⟩, hid⟩
      obtain rfl := hunique a hin ((checkAccount_id halert).symm.trans hid)
      exact ⟨hlive, hin, alert, halert⟩
    · rintro ⟨hlive, hin, alert, halert⟩
      exact ⟨alert, ⟨account, ⟨hin, hlive⟩, halert⟩, checkAccount_id halert⟩

end BalanceDriftCheck

/-- A check whose accounts were read with the balance that is there when the trades of the account are read, in any
run from a fresh database: there is an alert of the account iff it is live and listed, has an API and ticks for its
open trades, none of its trades is being closed, and the equity the exchange reports differs from the initial
balance with all that was realized and the unrealized profit by more than 1 % of it and more than 500. -/
theorem drift_found_iff (h₀ : w₀.db.Fresh) {a₀ : TradingAccount} (ha₀ : w₀.db.accounts.find? id = some a₀)
    (hbalance : a₀.currentBalance = a₀.initialBalance) {h : Run ε} (hv : h.Of E w₀ actors) {t : BalanceDriftCheck}
    {db₁ : Db} (hlist : t.accounts = .ok db₁) {account : TradingAccount}
    (ha : db₁.accounts.find? id = some account)
    (hsame : (h.world.db.accounts.find? id).map TradingAccount.currentBalance = some account.currentBalance)
    {m : Snapshot} (hm : m.db = h.world.db) (hread : t.trades id = .ok m) :
    (∃ alert ∈ t.checkLiveAccounts, alert.accountId = id) ↔ t.liveForcesDryRun = false ∧ account.live ∧
      (account.active ∨ ∃ r ∈ db₁.trades.rows, r.accountId = id ∧ r.status ≠ .closed) ∧
      t.apis account.exchange ∧ m.db.NoneClosing id ∧
      (∀ u ∈ m.db.openTradesOf id, (m.tick u.exchange u.pair).isSome) ∧
      ∃ collateral, t.collateral id = .ok collateral ∧
        let exchangeEquity := collateral.collateral + collateral.openPositionPnl
        max (exchangeEquity * (1 / 100)) 500 < |exchangeEquity - m.equity id a₀.initialBalance| := by
  obtain rfl := Db.account_id ha
  have hequity : m.db.NoneClosing account.id → account.currentBalance +
      ((m.db.openTradesOf account.id).map Trade.margin).sum +
        ((m.db.openTradesOf account.id).map fun u => (u.valued (m.closePrice u)).unrealizedPnl).sum =
      m.equity account.id a₀.initialBalance := by
    intro hclosing
    have hbooked := hv.booked h₀ ha₀ hbalance
    rw [← hm] at hbooked hsame
    obtain ⟨current, hcurrent, hsame⟩ := Option.map_eq_some_iff.mp hsame
    have hopen : m.db.total account.id TradeRow.locked = ((m.db.openTradesOf account.id).map Trade.margin).sum := by
      rw [openTradesOf_eq hclosing, List.map_map, Db.total]
      refine Eq.trans (Lib.Table.sum_congr fun r _ => ?_)
        (Lib.Table.sum_filter m.db.trades _ (Trade.margin ∘ TradeRow.toTrade)).symm
      by_cases hid : r.accountId = account.id <;> by_cases hs : r.status = .closed <;>
        simp [hid, hs, TradeRow.locked]
    rw [Snapshot.equity, ← hopen, ← hsame, hbooked current hcurrent]
  rw [BalanceDriftCheck.mem_checkLiveAccounts hlist ha, BalanceDriftCheck.checkAccount_isSome hread]
  simp only [isDrift_iff]
  refine and_congr_right fun _ => and_congr_right fun _ => and_congr_right fun _ => and_congr_right fun _ =>
    and_congr_right fun hclosing => and_congr_right fun _ => ?_
  rw [hequity hclosing]

/-- A check of the live account that holds a trade, when the exchange says that all collateral is gone. -/
def sampleDriftCheck : BalanceDriftCheck where
  apis _ := true
  liveForcesDryRun := false
  now := 0
  accounts := .ok sampleCommission.world.db
  collateral _ := .ok ⟨0, 0⟩
  trades _ := .ok ⟨sampleCommission.world.db, fun _ _ => some (110, 111)⟩

theorem sampleDriftCheck_found : ∃ alert ∈ sampleDriftCheck.checkLiveAccounts, alert.accountId = 1 := by
  have ha : sampleCommission.world.db.accounts.find? 1 = some { sampleAccount with currentBalance := 500 } := by
    decide +kernel
  refine (@drift_found_iff Unit anyExchange _ ⟨sampleDb, (), 0⟩ 1 ⟨rfl, rfl⟩ sampleAccount rfl rfl sampleCommission
    (Run.play_of anyExchange _ _ _) sampleDriftCheck _ rfl _ ha (by rw [ha]; rfl) ⟨_, _⟩ rfl rfl).mpr ?_
  exact ⟨rfl, rfl, .inl rfl, rfl, by decide +kernel, fun _ _ => rfl, ⟨0, 0⟩, rfl, by decide +kernel⟩

end AutoTrader
