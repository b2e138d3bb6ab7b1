import AutoTrader.Db.Trades
import AutoTrader.Lib.Group
import AutoTrader.Lib.Prog
import Mathlib.Algebra.Group.Prod
import Mathlib.Algebra.Ring.Rat
import Mathlib.Data.List.Sort

/-!
# The daily summary

`daily_summary` has a row for each day and group of closed trades. `upsertDailySummary` adds to a row,
`updateDailyMaxDrawdown` is a program of several statements that stores the drawdowns of a day, with the
counts where a group has no row yet, and `rebuildDailySummary` builds the rows of a day anew (`dayRows`).
-/

namespace AutoTrader

open Lib (Prog Iface Table)

/-! ## Rows -/

/-- Days since the epoch. -/
abbrev NaiveDate := Int

/-- The start of day `n`. -/
def day (n : Int) : Int := seconds (86400 * n)

/-- The UTC day. -/
def DateTime.dateNaive (t : DateTime) : NaiveDate := t / day 1

/-- `t >= date AND t < date + INTERVAL '1 day'`. -/
def inDay (date : NaiveDate) (t : DateTime) : Bool := day date ≤ t ∧ t < day (date + 1)

theorem inDay_iff {date : NaiveDate} {t : DateTime} : inDay date t ↔ DateTime.dateNaive t = date := by
  have hin : ∀ d t : Int, d * 86400 * 1000000 ≤ t ∧ t < (d + 1) * 86400 * 1000000 ↔ t / 86400000000 = d := by omega
  have hday : ∀ n : Int, day n = n * 86400 * 1000000 := fun n => by
    simp only [day, seconds]
    omega
  show inDay date t ↔ t / 86400000000 = date
  rw [← hin date t, ← hday, ← hday]
  exact decide_eq_true_iff

/-- The key of a row of the daily summary. -/
structure SummaryKey where
  date : NaiveDate
  strategyName : String
  pair : Pair
  /-- The account type. -/
  live : Bool
  exchange : Exchange
  accountId : Option Uuid
  deriving DecidableEq, Repr

/-- Trades, wins and profit. -/
abbrev DayTotals := Int × Int × Decimal

/-- A row of the daily summary. -/
structure DailySummary where
  key : SummaryKey
  tradeCount : Int
  winCount : Int
  totalPnl : Decimal
  maxDrawdown : Decimal
  deriving DecidableEq, Repr

/-- The counts and the profit of a row. -/
def DailySummary.totals (row : DailySummary) : DayTotals := (row.tradeCount, row.winCount, row.totalPnl)

/-- A row with more trades in it. -/
def DailySummary.add (old : DailySummary) (tradeCountDelta winCountDelta : Int) (pnlDelta : Decimal) : DailySummary :=
  { old with
    tradeCount := old.tradeCount + tradeCountDelta, winCount := old.winCount + winCountDelta
    totalPnl := old.totalPnl + pnlDelta }

/-- The table of the daily summaries. -/
abbrev Summaries := Table DailySummary.key

/-- `upsert_daily_summary`: the deltas are added to the row, or make a new one. -/
def upsertDailySummary (key : SummaryKey) (tradeCountDelta winCountDelta : Int) (pnlDelta : Decimal)
    (s : Summaries) : Summaries :=
  s.upsert ⟨key, tradeCountDelta, winCountDelta, pnlDelta, 0⟩ fun old =>
    old.add tradeCountDelta winCountDelta pnlDelta

theorem find?_upsertDailySummary (key : SummaryKey) (n m : Int) (pnl : Decimal) (s : Summaries) (key' : SummaryKey) :
    (upsertDailySummary key n m pnl s).find? key' =
      if key' = key then some (((s.find? key).map fun old => old.add n m pnl).getD ⟨key, n, m, pnl, 0⟩)
      else s.find? key' :=
  Lib.Table.find?_upsert s ⟨key, n, m, pnl, 0⟩ (f := fun old => old.add n m pnl) (fun _ => rfl) key'

/-! ## The closed trades of a day -/

/-- A closed trade with the group it counts for. -/
structure DayClose where
  key : SummaryKey
  exitAt : DateTime
  pnl : Decimal
  deriving DecidableEq, Repr

/-- A closed row, joined with its account. -/
def closeOf (accounts : Table TradingAccount.id) (r : TradeRow) : Option DayClose :=
  match r.status, r.exitAt, (accounts.find? r.accountId).map TradingAccount.live with
  | .closed, some exitAt, some live =>
    some ⟨⟨DateTime.dateNaive exitAt, r.strategyName, r.pair, live, r.exchange, some r.accountId⟩, exitAt,
      r.pnlAmount.getD 0⟩
  | _, _, _ => none

/-- The closed trades of the database. -/
def Db.closes (db : Db) : List DayClose := db.trades.rows.filterMap (closeOf db.accounts)

/-- The trades closed on a day. -/
def Db.closedOn (db : Db) (date : NaiveDate) : List DayClose := db.closes.filter fun c => inDay date c.exitAt

/-- The profits of one group. -/
def pnlsOf (key : SummaryKey) (closes : List DayClose) : List Decimal :=
  (closes.filter fun c => c.key = key).map DayClose.pnl

/-- The count, the wins and the sum of profits, one after the other. -/
def foldTotals (pnls : List Decimal) : DayTotals :=
  pnls.foldl (fun (count, wins, pnlSum) pnl => (count + 1, wins + (if pnl > 0 then 1 else 0), pnlSum + pnl)) (0, 0, 0)

/-- `COUNT(*)`, `COUNT(*) FILTER (WHERE pnl_amount > 0)` and `SUM(pnl_amount)`. -/
def aggregateTotals (pnls : List Decimal) : DayTotals :=
  (pnls.length, (pnls.filter fun pnl => pnl > 0).length, pnls.sum)

/-- The rows that a rebuild of the day inserts: one for each group of its closed trades. -/
def dayRows (db : Db) (date : NaiveDate) : List DailySummary :=
  (Lib.groupBy DayClose.key (db.closedOn date)).map fun (key, closes) =>
    let (count, wins, pnl) := aggregateTotals (closes.map DayClose.pnl)
    ⟨key, count, wins, pnl, 0⟩

/-! ## The drawdown of a day -/

/-- What the drawdowns are grouped by. -/
abbrev GroupKey := String × Pair × Exchange × Option Uuid

/-- The group of a closed trade. -/
def DayClose.group (c : DayClose) : GroupKey := (c.key.strategyName, c.key.pair, c.key.exchange, c.key.accountId)

/-- The profits of each group in the order of the exits, with the account type of the first. -/
def groupPnlsByStrategyPairExchangeAccount (rows : List DayClose) : List (GroupKey × List Decimal × Bool) :=
  (Lib.groupBy DayClose.group rows).map fun (key, closes) =>
    (key, closes.map DayClose.pnl, (closes.head?.map fun c => c.key.live).getD false)

/-- The state of the drawdown loop. -/
structure Drawdown where
  peak : Decimal
  equity : Decimal
  maxDd : Decimal

/-- The deepest fall of the running profit below its peak. -/
def maxDrawdown (pnls : List Decimal) : Decimal :=
  (pnls.foldl (fun d pnl =>
    let equity := d.equity + pnl
    let peak := if equity > d.peak then equity else d.peak
    let dd := peak - equity
    ⟨peak, equity, if dd > d.maxDd then dd else d.maxDd⟩) (⟨0, 0, 0⟩ : Drawdown)).maxDd

/-- The statements of the summary writers. -/
inductive SummarySql where
  | fetchClosedTrades (date : NaiveDate)
  | updateMaxDrawdown (key : SummaryKey) (maxDd : Decimal)
  | insertMaxDrawdown (row : DailySummary)
  | rebuild (date : NaiveDate)

/-- What each statement returns. -/
@[reducible] def SummarySql.Ok : SummarySql → Type
  | .fetchClosedTrades _ => List DayClose
  | .updateMaxDrawdown _ _ => Nat
  | .insertMaxDrawdown _ | .rebuild _ => Unit

/-- What a statement does; `none` if a constraint fails. -/
def SummarySql.tx (db : Db) (s : Summaries) : (q : SummarySql) → Option (q.Ok × Summaries)
  | .fetchClosedTrades date => some ((db.closedOn date).insertionSort fun c d => c.exitAt ≤ d.exitAt, s)
  | .updateMaxDrawdown key maxDd =>
    match s.find? key with
    | some row => some (1, s.set { row with maxDrawdown := maxDd })
    | none => some (0, s)
  | .insertMaxDrawdown row => some ((), s.upsert row fun old => { old with maxDrawdown := row.maxDrawdown })
  | .rebuild date => ((s.filter fun row => row.key.date ≠ date).append (dayRows db date)).map fun s => ((), s)

/-- The interface of the summary functions. -/
abbrev SummaryCalls : Iface := ⟨SummarySql, fun q => Except Error q.Ok⟩

/-- One statement. -/
def sql (q : SummarySql) : ExceptT Error (Prog SummaryCalls) q.Ok := ExceptT.mk (Prog.perform (I := SummaryCalls) q)

/-- The drawdown of a group enters its row, which is made if there is none. -/
def persistMaxDrawdown (date : NaiveDate) (group : GroupKey) (pnls : List Decimal) (live : Bool) (maxDd : Decimal) :
    ExceptT Error (Prog SummaryCalls) Unit := do
  let (strategy, pair, exchange, accountId) := group
  let key : SummaryKey := ⟨date, strategy, pair, live, exchange, accountId⟩
  let rowsAffected ← sql (.updateMaxDrawdown key maxDd)
  if rowsAffected = 0 then
    let (totalTrades, totalWins, totalPnl) := foldTotals pnls
    sql (.insertMaxDrawdown ⟨key, totalTrades, totalWins, totalPnl, maxDd⟩)

/-- The drawdowns of the groups, in order. -/
def persistMaxDrawdowns (date : NaiveDate) : List (GroupKey × List Decimal × Bool) →
    ExceptT Error (Prog SummaryCalls) Unit
  | [] => pure ()
  | (group, pnls, live) :: groups => do
    persistMaxDrawdown date group pnls live (maxDrawdown pnls)
    persistMaxDrawdowns date groups

/-- `update_daily_max_drawdown`: the drawdowns of the trades closed on a day. -/
def updateDailyMaxDrawdown (date : NaiveDate) : ExceptT Error (Prog SummaryCalls) Unit := do
  let rows ← sql (.fetchClosedTrades date)
  persistMaxDrawdowns date (groupPnlsByStrategyPairExchangeAccount rows)

/-- `rebuild_daily_summary`: the counts of a day anew, then its drawdowns. -/
def rebuildDailySummary (date : NaiveDate) : ExceptT Error (Prog SummaryCalls) Unit := do
  sql (.rebuild date)
  updateDailyMaxDrawdown date

/-! ## Totals -/

theorem aggregateTotals_cons (pnl : Decimal) (pnls : List Decimal) :
    aggregateTotals (pnl :: pnls) = (1, if pnl > 0 then 1 else 0, pnl) + aggregateTotals pnls := by
  have hwins : ((List.filter (fun p => decide (p > 0)) (pnl :: pnls)).length : Int) =
      (if pnl > 0 then 1 else 0) + (pnls.filter fun p => decide (p > 0)).length := by
    by_cases hpnl : pnl > 0
    · rw [List.filter_cons_of_pos (by simpa using hpnl), if_pos hpnl, List.length_cons]
      omega
    · rw [List.filter_cons_of_neg (by simpa using hpnl), if_neg hpnl]
      omega
  simp only [aggregateTotals, hwins, List.length_cons, List.sum_cons, Prod.mk_add_mk, Prod.mk.injEq, and_true]
  omega

theorem aggregateTotals_perm {ps qs : List Decimal} (h : ps.Perm qs) : aggregateTotals ps = aggregateTotals qs := by
  simp only [aggregateTotals, h.length_eq, (h.filter _).length_eq, h.sum_eq]

/-- The counts that a drawdown run inserts are those of the aggregate query. -/
theorem foldTotals_eq (pnls : List Decimal) : foldTotals pnls = aggregateTotals pnls := by
  have fold : ∀ (pnls : List Decimal) (t : DayTotals),
      pnls.foldl (fun (count, wins, pnlSum) pnl => (count + 1, wins + (if pnl > 0 then 1 else 0), pnlSum + pnl)) t =
        t + aggregateTotals pnls := by
    intro pnls
    induction pnls with
    | nil =>
      intro t
      exact (add_zero t).symm
    | cons pnl pnls ih =>
      intro t
      rw [List.foldl_cons, ih, aggregateTotals_cons, ← add_assoc]
      rfl
  rw [foldTotals, fold]
  exact zero_add _

theorem pnlsOf_append (key : SummaryKey) (cs ds : List DayClose) :
    pnlsOf key (cs ++ ds) = pnlsOf key cs ++ pnlsOf key ds := by
  simp only [pnlsOf, List.filter_append, List.map_append]

theorem pnlsOf_perm {key : SummaryKey} {cs ds : List DayClose} (h : cs.Perm ds) :
    (pnlsOf key cs).Perm (pnlsOf key ds) :=
  (h.filter _).map _

/-- A row holds exactly these profits; there is no row for no profit. -/
def Holds (row : Option DailySummary) (pnls : List Decimal) : Prop :=
  match row with
  | none => pnls = []
  | some row => pnls ≠ [] ∧ row.totals = aggregateTotals pnls

theorem Holds.perm {row : Option DailySummary} {ps qs : List Decimal} (h : Holds row ps) (hp : ps.Perm qs) :
    Holds row qs := by
  cases row with
  | none =>
    have h : ps = [] := h
    rw [h] at hp
    exact hp.nil_eq.symm
  | some row =>
    refine ⟨fun hnil => h.1 ?_, h.2.trans (aggregateTotals_perm hp)⟩
    rw [hnil] at hp
    exact hp.eq_nil

/-- Rows that hold profits have the same totals iff they hold as many. -/
theorem Holds.totals_eq_iff {row row' : Option DailySummary} {ps extra : List Decimal} (h : Holds row (extra ++ ps))
    (h' : Holds row' ps) :
    row.map DailySummary.totals = row'.map DailySummary.totals ↔ extra = [] := by
  constructor
  · intro heq
    cases hrow : row with
    | none =>
      rw [hrow] at h
      exact (List.append_eq_nil_iff.mp h).1
    | some r =>
      rw [hrow] at h heq
      obtain ⟨r', hr', hr⟩ := Option.map_eq_some_iff.mp heq.symm
      rw [hr'] at h'
      have hcount := congrArg Prod.fst ((h'.2.symm.trans hr).trans h.2)
      simp only [aggregateTotals, List.length_append] at hcount
      exact List.length_eq_zero_iff.mp (by omega)
  · rintro rfl
    rw [List.nil_append] at h
    cases row with
    | none =>
      have h : ps = [] := h
      cases row' with
      | none => rfl
      | some r' => exact absurd h h'.1
    | some r =>
      cases row' with
      | none => exact absurd h' h.1
      | some r' => exact congrArg some (h.2.trans h'.2.symm)

theorem Holds.congr {row row' : Option DailySummary} {ps : List Decimal} (h : Holds row ps)
    (ht : row'.map DailySummary.totals = row.map DailySummary.totals) : Holds row' ps := by
  cases row with
  | none =>
    rw [Option.map_eq_none_iff.mp ht]
    exact h
  | some r =>
    obtain ⟨r', rfl, hr⟩ := Option.map_eq_some_iff.mp ht
    exact ⟨h.1, hr.trans h.2⟩

theorem closes_date {db : Db} {c : DayClose} (h : c ∈ db.closes) : c.key.date = DateTime.dateNaive c.exitAt := by
  obtain ⟨r, -, hr⟩ := List.mem_filterMap.mp h
  simp only [closeOf] at hr
  split at hr
  · rw [← Option.some.inj hr]
  · cases hr

theorem dayRows_date {db : Db} {date : NaiveDate} {row : DailySummary} (h : row ∈ dayRows db date) :
    row.key.date = date := by
  obtain ⟨⟨k, closes⟩, hmem, rfl⟩ := List.mem_map.mp h
  obtain ⟨hcloses, hne⟩ := Lib.mem_groupBy_iff.mp hmem
  obtain ⟨c, hc⟩ := List.exists_mem_of_ne_nil _ hne
  rw [hcloses, List.mem_filter, Db.closedOn, List.mem_filter, decide_eq_true_eq] at hc
  obtain ⟨⟨hc, hday⟩, hk⟩ := hc
  show k.date = date
  rw [← hk, closes_date hc]
  exact inDay_iff.mp hday

/-- The row that a rebuild makes for a group holds the closed trades of that group. -/
theorem holds_dayRows (db : Db) (key : SummaryKey) :
    Holds ((dayRows db key.date).find? fun row => row.key = key) (pnlsOf key db.closes) := by
  have hgroup : (db.closedOn key.date).filter (fun c => c.key = key) = db.closes.filter fun c => c.key = key := by
    rw [Db.closedOn, List.filter_filter]
    refine List.filter_congr fun c hc => ?_
    by_cases hk : c.key = key
    · have : inDay key.date c.exitAt := inDay_iff.mpr (by rw [← hk, closes_date hc])
      simp [hk, this]
    · simp [hk]
  cases hfind : (dayRows db key.date).find? fun row => row.key = key with
  | none =>
    show pnlsOf key db.closes = []
    by_contra hne
    rw [pnlsOf, ← hgroup, List.map_eq_nil_iff] at hne
    have hmem := Lib.mem_groupBy_iff.mpr ⟨rfl, hne⟩
    have hrow := List.find?_eq_none.mp hfind _ (List.mem_map_of_mem hmem)
    exact hrow (decide_eq_true rfl)
  | some row =>
    obtain ⟨⟨k, closes⟩, hmem, rfl⟩ := List.mem_map.mp (List.mem_of_find?_eq_some hfind)
    have hk : k = key := by simpa using List.find?_some hfind
    obtain ⟨hcloses, hne⟩ := Lib.mem_groupBy_iff.mp hmem
    rw [hk, hgroup] at hcloses
    rw [hcloses] at hne
    refine ⟨fun hnil => hne (List.map_eq_nil_iff.mp hnil), ?_⟩
    rw [pnlsOf, ← hcloses]
    rfl

end AutoTrader
