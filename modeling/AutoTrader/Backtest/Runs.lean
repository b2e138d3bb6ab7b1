import AutoTrader.Backtest.Accounting

/-!
# Runs of a backtest

Every candle keeps the books (`candle_kept`), so every state between two candles has them (`exists_before`), and the
report of a run is that of its last state. `run_accounts` is what follows for a whole run.
-/

namespace AutoTrader

open Lib (Orderly)

variable {S : Type}

namespace BacktestRunner

variable (r : BacktestRunner) (s : Surroundings) (strategy : BacktestStrategy S)

/-- The states that a candle goes through: before it, after its fixed exits, after its entry and after the exits of the
strategy. -/
structure Phases (candles : List Candle) (k : Nat) (candle : Candle) (st exited entered after : RunState S) : Prop where
  fixedExits : st.closeHitFixedExits s r.pair candle = .ok exited
  entry : exited.tryOpenNewEntry s strategy (r.event candles k candle) r.sizer r.liquidationMarginLevel = entered
  strategyExits : entered.closeStrategyDrivenExits s strategy (r.event candles k candle) = .ok after

variable {r s strategy}

/-- Every phase of a candle keeps the books and the trades of the list, and every position of the pair whose stop the
candle touches is left there. -/
theorem candle_kept (hnames : strategy.NamesOpen) {b : Decimal} {st : RunState S} (h : Books s b st)
    (candles : List Candle) (k : Nat) (candle : Candle) :
    ∃ exited entered after, r.Phases s strategy candles k candle st exited entered after ∧
      (Books s b exited ∧ Books s b entered ∧ Books s b after) ∧
      (st.trades <+: exited.trades ∧ exited.trades <+: after.trades) ∧
      ∀ p ∈ st.trader.positions.rows, p.pair = r.pair → p.TouchesStop candle →
        StoppedAt p candle.timestamp st exited := by
  obtain ⟨exited, hexited, hbooks, hgrows, hstopped⟩ := h.fixedExits r.pair candle
  have hentered := hbooks.entry strategy (r.event candles k candle) r.sizer r.liquidationMarginLevel
  have hgrows' := trades_tryOpenNewEntry s strategy (r.event candles k candle) r.sizer r.liquidationMarginLevel exited
  obtain ⟨after, hafter, hbooks', hgrows''⟩ := hentered.strategyExits hnames (r.event candles k candle)
  exact ⟨exited, _, after, ⟨hexited, rfl, hafter⟩, ⟨hbooks, hentered, hbooks'⟩, ⟨hgrows, hgrows'.trans hgrows''⟩,
    hstopped⟩

theorem Phases.runCandle {candles : List Candle} {k : Nat} {candle : Candle} {st exited entered after : RunState S}
    (h : r.Phases s strategy candles k candle st exited entered after) :
    r.runCandle s strategy candles st (candle, k) = .ok after := by
  unfold BacktestRunner.runCandle
  dsimp only
  rw [h.fixedExits]
  show (exited.tryOpenNewEntry s strategy _ r.sizer r.liquidationMarginLevel).closeStrategyDrivenExits s strategy _ = _
  rw [h.entry, h.strategyExits]

theorem books_start (state : S) : Books s r.initialBalance (r.start state) := by
  refine ⟨Lib.orderly_nil, fun p hp => ?_, fun t ht => ?_, fun t ht => ?_, ?_, fun t ht => ?_,
    List.nodup_nil⟩
  · exact absurd hp List.not_mem_nil
  · exact absurd ht List.not_mem_nil
  · exact absurd ht List.not_mem_nil
  · exact (add_zero r.initialBalance).symm
  · exact absurd ht List.not_mem_nil

theorem before_succ (state : S) (candles : List Candle) {k : Nat} {candle : Candle} (hk : candles[k]? = some candle) :
    r.before s strategy state candles (k + 1) =
      (r.before s strategy state candles k).bind fun st => r.runCandle s strategy candles st (candle, k) := by
  have htake : candles.zipIdx.take (k + 1) = candles.zipIdx.take k ++ [(candle, k)] := by
    rw [List.take_add_one, List.getElem?_zipIdx, hk]
    simp
  rw [before, htake, List.foldlM_append]
  show (r.before s strategy state candles k >>= _) = _
  simp only [List.foldlM_cons, List.foldlM_nil, bind_pure]
  rfl

theorem exists_before (hnames : strategy.NamesOpen) (state : S) (candles : List Candle) :
    ∀ k ≤ candles.length, ∃ st, r.before s strategy state candles k = .ok st ∧ Books s r.initialBalance st := by
  intro k
  induction k with
  | zero => exact fun _ => ⟨_, rfl, books_start state⟩
  | succ k ih =>
    intro hk
    obtain ⟨st, hst, hbooks⟩ := ih (Nat.le_of_succ_le hk)
    obtain ⟨exited, entered, after, hphases, ⟨-, -, hbooks'⟩, -⟩ := candle_kept hnames hbooks candles k candles[k]
    refine ⟨after, ?_, hbooks'⟩
    rw [before_succ state candles (List.getElem?_eq_getElem hk), hst]
    exact hphases.runCandle

/-- No trade leaves the list. -/
theorem trades_before (hnames : strategy.NamesOpen) (state : S) (candles : List Candle) {k n : Nat} (hkn : k ≤ n)
    (hn : n ≤ candles.length) {st st' : RunState S} (hst : r.before s strategy state candles k = .ok st)
    (hst' : r.before s strategy state candles n = .ok st') : st.trades <+: st'.trades := by
  induction n, hkn using Nat.le_induction generalizing st' with
  | base =>
    rw [hst] at hst'
    rw [Except.ok.inj hst']
  | succ n hkn ih =>
    obtain ⟨mid, hmid, hbooks⟩ := exists_before hnames state candles n (Nat.le_of_succ_le hn)
    obtain ⟨exited, entered, after, hphases, -, ⟨hgrows, hgrows'⟩, -⟩ :=
      candle_kept hnames hbooks candles n candles[n]
    rw [before_succ state candles (List.getElem?_eq_getElem hn), hmid] at hst'
    have heq : after = st' := Except.ok.inj (hphases.runCandle.symm.trans hst')
    rw [← heq]
    exact (ih (Nat.le_of_succ_le hn) hmid).trans (hgrows.trans hgrows')

/-- The report of a run is that of the state after its last candle. -/
theorem run_eq (state : S) (stored : List Candle) (hstored : stored ≠ []) :
    r.run s strategy state (.ok stored) = (r.before s strategy state stored.reverse stored.length).map fun st =>
      .fromTradesWithFailures st.trades r.initialBalance st.trader.balance st.executionFailures := by
  have hload : r.loadChronologicalCandles (.ok stored) = .ok stored.reverse := by
    unfold loadChronologicalCandles
    show (if stored.reverse.isEmpty = true then _ else _) = _
    rw [if_neg (by simpa using hstored)]
    rfl
  rw [run, hload, before, List.take_of_length_le (by simp)]
  rfl

/-- The accounts of a report: the balances differ by the total profit, which is that of the closed trades, and every
closed trade was opened before and is closed once. -/
structure Audited (report : BacktestReport) : Prop where
  balance : report.finalBalance - report.initialBalance = report.totalPnl
  total : report.totalPnl = (closedPnls report.trades).sum
  pnl : ∀ t ∈ closedTrades report.trades, t.pnlAmount.isSome
  openedBefore : ∀ earlier t, earlier ++ [t] <+: report.trades → t.status = .closed →
    ∃ o ∈ earlier, o.status = .open ∧ o.id = t.id
  closedOnce : ((closedTrades report.trades).map Trade.id).Nodup

theorem Audited.of_books {b : Decimal} {st : RunState S} (h : Books s b st) :
    Audited (.fromTradesWithFailures st.trades b st.trader.balance st.executionFailures) := by
  have htotal : ((closedTrades st.trades).filterMap Trade.pnlAmount).sum = (closedPnls st.trades).sum :=
    Lib.Table.sum_filterMap Trade.pnlAmount (closedTrades st.trades)
  refine ⟨?_, htotal, h.pnl, fun earlier t hpre hclosed => ?_, h.orderly.endedOnce⟩
  · show st.trader.balance - b = ((closedTrades st.trades).filterMap Trade.pnlAmount).sum
    rw [htotal, h.balance, add_sub_cancel_left]
  · obtain ⟨o, ho, hopen, hid⟩ := h.orderly.endedAfter earlier t hpre hclosed
    have hmem : o ∈ st.trades := hpre.subset (List.mem_append_left [t] ho)
    exact ⟨o, ho, (h.status o hmem).resolve_right hopen, hid⟩

/-- A run over any candles returns a report whose accounts are right. At every candle there is one open position for a
strategy and a pair at most, before it and after each of its phases, and a position whose stop it touches is closed at
the stop, also when it touches the take-profit. -/
theorem run_accounts (r : BacktestRunner) (s : Surroundings) (strategy : BacktestStrategy S)
    (hnames : strategy.NamesOpen) (state : S) (stored : List Candle) :
    (stored = [] → ∃ e, r.run s strategy state (.ok stored) = .error e) ∧
    (stored ≠ [] → ∃ report, r.run s strategy state (.ok stored) = .ok report ∧ Audited report ∧
      ∀ k candle, stored.reverse[k]? = some candle → ∃ st exited entered after,
        r.before s strategy state stored.reverse k = .ok st ∧
        r.Phases s strategy stored.reverse k candle st exited entered after ∧
        r.before s strategy state stored.reverse (k + 1) = .ok after ∧
        (st.OnePosition ∧ exited.OnePosition ∧ entered.OnePosition ∧ after.OnePosition) ∧
        exited.trades <+: report.trades ∧
        ∀ p ∈ st.trader.positions.rows, p.pair = r.pair → p.TouchesStop candle →
          StoppedAt p candle.timestamp st exited) := by
  refine ⟨?_, fun hstored => ?_⟩
  · rintro rfl
    exact ⟨_, rfl⟩
  obtain ⟨final, hfinal, hbooks⟩ := exists_before (r := r) (s := s) hnames state stored.reverse stored.length (by simp)
  refine ⟨.fromTradesWithFailures final.trades r.initialBalance final.trader.balance final.executionFailures, ?_,
    .of_books hbooks, fun k candle hk => ?_⟩
  · rw [run_eq state stored hstored, hfinal]
    rfl
  · have hlt : k < stored.length := by
      simpa using (List.getElem?_eq_some_iff.mp hk).1
    obtain ⟨st, hst, hbooks⟩ := exists_before (r := r) (s := s) hnames state stored.reverse k
      (by simpa using Nat.le_of_lt hlt)
    obtain ⟨exited, entered, after, hphases, ⟨hexited, hentered, hafter⟩, ⟨-, hgrows⟩, hstopped⟩ :=
      candle_kept (r := r) hnames hbooks stored.reverse k candle
    have hnext : r.before s strategy state stored.reverse (k + 1) = .ok after := by
      rw [before_succ state stored.reverse hk, hst]
      exact hphases.runCandle
    have hlast : after.trades <+: final.trades :=
      trades_before hnames state stored.reverse hlt (by simp) hnext hfinal
    exact ⟨st, exited, entered, after, hst, hphases, hnext,
      ⟨hbooks.onePosition, hexited.onePosition, hentered.onePosition, hafter.onePosition⟩, hgrows.trans hlast, hstopped⟩

/-! ## A run -/

/-- Identifiers in order, and a map that lists in reverse. -/
def sampleSurroundings : Surroundings where
  newId := id
  newId_injective := Function.injective_id
  values _ trades := trades.reverse
  values_perm _ trades := List.reverse_perm trades

/-- A long at a close of 100, and every position closed at one of 101. -/
def sampleBuyer : BacktestStrategy Unit where
  onPrice _ event := (if event.candle.close = 100 then
    some ⟨"buyer", event.pair, .long, 1 / 50, some (1 / 25), 1 / 2, none⟩ else none, ())
  onOpenPositions _ positions event := (if event.candle.close = 101 then
    positions.map fun p => ⟨p.trade.id, .timeLimit, event.candle.close⟩ else [], ())

/-- A run over hourly candles. -/
def sampleBuyerRun : BacktestRunner where
  exchange := .gmoFx
  pair := "USD_JPY"
  timeframe := "H1"
  initialBalance := 100000
  leverage := 10
  sizer := ⟨fun _ => some 1, 0, fun _ => none⟩
  liquidationMarginLevel := 1 / 2
  spreadPct := 1 / 1000

/-- The candle of an hour. -/
def sampleHour (n : Int) (high low close : Decimal) : Candle :=
  ⟨"USD_JPY", .gmoFx, "H1", close, high, low, close, none, none, none, seconds (3600 * n)⟩

/-- The second candle touches the stop and the take-profit of the position of the first. -/
def sampleHours : List Candle :=
  [sampleHour 3 102 99 101, sampleHour 2 101 99 100, sampleHour 1 120 90 105, sampleHour 0 101 99 100]

theorem sampleBuyer_namesOpen : sampleBuyer.NamesOpen := by
  intro state positions event hnodup
  by_cases hclose : event.candle.close = 101
  · have hexits : (sampleBuyer.onOpenPositions state positions event).1 =
        positions.map fun p => ⟨p.trade.id, .timeLimit, event.candle.close⟩ := if_pos hclose
    rw [hexits]
    refine ⟨by rw [List.map_map]; exact hnodup, fun exit hexit => ?_⟩
    obtain ⟨p, hp, rfl⟩ := List.mem_map.mp hexit
    exact ⟨p, hp, rfl⟩
  · have hexits : (sampleBuyer.onOpenPositions state positions event).1 = [] := if_neg hclose
    rw [hexits]
    exact ⟨List.nodup_nil, fun exit hexit => absurd hexit List.not_mem_nil⟩

/-- The run returns a report with accounts that are right: the first position was left at its stop, the second one by
the strategy. -/
theorem sampleBuyerRun_accounts :
    (∃ report, sampleBuyerRun.run sampleSurroundings sampleBuyer () (.ok sampleHours) = .ok report ∧
      Audited report) ∧
    ((sampleBuyerRun.run sampleSurroundings sampleBuyer () (.ok sampleHours)).toOption.map fun report =>
      report.trades.map fun t => (t.id, t.exitReason)) =
      some [(0, none), (0, some .slHit), (1, none), (1, some .strategyTimeLimit)] := by
  obtain ⟨report, hrun, haudited, -⟩ := (run_accounts sampleBuyerRun sampleSurroundings sampleBuyer
    sampleBuyer_namesOpen () sampleHours).2 (by decide)
  exact ⟨⟨report, hrun, haudited⟩, by decide +kernel⟩

end BacktestRunner

end AutoTrader
