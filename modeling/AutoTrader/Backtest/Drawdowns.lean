import AutoTrader.Backtest.Report
import AutoTrader.Db.Summary
import AutoTrader.Sim.Drawdown

/-!
# The three drawdown loops

The day summaries, the backtest report and the evaluation of a simulated run each have a loop of their own for the
drawdown of a list of profits. The first two compute with exact amounts and find the greatest fall of every list
(`maxDrawdown_eq`, `maxDrawdownOf_eq`), the report from any initial balance on. `drawdowns_agree_iff` says for which
lists the third one, which computes with words, finds the same.
-/

namespace AutoTrader

open Lib (Running falls worstFall)

/-! ## The day summaries -/

/-- The state of the summary's loop. -/
def Drawdown.running (d : Drawdown) : Running Decimal := ⟨d.peak, d.equity, d.maxDd⟩

theorem maxDrawdown_eq (pnls : List Decimal) : maxDrawdown pnls = worstFall 0 pnls := by
  refine congrArg Running.worst (List.foldl_hom Drawdown.running (fun d pnl => ?_)).symm
  simp only [Drawdown.running, Running.next, max_def_lt]

/-! ## The report -/

/-- The state of the report's loop. -/
def BacktestReport.Equity.running (e : Equity) : Running Decimal := ⟨e.peak, e.equity, e.maxDd⟩

theorem maxDrawdownOf_eq (closed : List Trade) (b : Decimal) :
    BacktestReport.maxDrawdownOf closed b = worstFall b (closed.map fun t => t.pnlAmount.getD 0) := by
  rw [worstFall, List.foldl_map]
  refine congrArg Running.worst (List.foldl_hom BacktestReport.Equity.running (fun e t => ?_)).symm
  simp only [BacktestReport.Equity.running, BacktestReport.Equity.add, Running.next, max_def_lt]

/-! ## All three -/

/-- Thousandths of a price as an amount. -/
def toDecimals (profits : List Int) : List Decimal := profits.map (Int.cast : Int → Decimal)

/-- The build finds the greatest fall of the profits, and it is what the exact loops find. -/
structure Agrees (build : Sim.Build) (trades : List Sim.SimTrade) (m : Int64) : Prop where
  found : Sim.maxDrawdownIn build trades = some m
  greatest : IsGreatest (falls (Sim.milli trades)) m.toInt
  nonneg : 0 ≤ m.toInt
  summary : maxDrawdown (toDecimals (Sim.milli trades)) = m.toInt
  report : ∀ closed b b' failures, closedPnls closed = toDecimals (Sim.milli trades) →
    (BacktestReport.fromTradesWithFailures closed b b' failures).maxDrawdown = m.toInt

theorem worstFall_eq {profits : List Int} {m : Int} (h : IsGreatest (falls profits) m) (b : Decimal) :
    worstFall b (toDecimals profits) = m :=
  (Lib.worstFall_isGreatest b (toDecimals profits)).unique
    (Lib.isGreatest_falls_map (f := Int.castAddHom Decimal) Int.cast_mono h)

theorem agrees_of_inRange {trades : List Sim.SimTrade} (h : Sim.InRange (Sim.milli trades)) (build : Sim.Build) :
    ∃ m, Agrees build trades m := by
  obtain ⟨s, hs, hm⟩ := Sim.drawdownIn_mirrors h build
  have hgreatest : IsGreatest (falls (Sim.milli trades)) s.maxDd.toInt := by
    rw [hm.worst]
    exact Lib.worstFall_isGreatest 0 (Sim.milli trades)
  refine ⟨s.maxDd, ?_, hgreatest, hgreatest.2 (Lib.zero_mem_falls _), ?_, fun closed b b' failures hpnls => ?_⟩
  · rw [Sim.maxDrawdownIn, hs]
    rfl
  · rw [maxDrawdown_eq, worstFall_eq hgreatest]
  · show BacktestReport.maxDrawdownOf (closedTrades closed) b = _
    rw [maxDrawdownOf_eq, ← closedPnls, hpnls, worstFall_eq hgreatest]

/-- The exact loops find the greatest fall of every list of profits. That of the evaluation finds it as well, in a build
with overflow checks and in one without, for exactly those profits whose sums and falls are words. -/
theorem drawdowns_agree_iff (trades : List Sim.SimTrade) (pnls : List Decimal) (closed : List Trade)
    (b b' : Decimal) (failures : Nat) :
    (IsGreatest (falls pnls) (maxDrawdown pnls) ∧ 0 ≤ maxDrawdown pnls) ∧
    (IsGreatest (falls (closedPnls closed))
        (BacktestReport.fromTradesWithFailures closed b b' failures).maxDrawdown ∧
      (BacktestReport.fromTradesWithFailures closed b b' failures).maxDrawdown = maxDrawdown (closedPnls closed)) ∧
    ((∀ build, ∃ m, Agrees build trades m) ↔ Sim.InRange (Sim.milli trades)) := by
  have hgreatest : ∀ pnls, IsGreatest (falls pnls) (maxDrawdown pnls) :=
    fun pnls => maxDrawdown_eq pnls ▸ Lib.worstFall_isGreatest 0 pnls
  have hreport : IsGreatest (falls (closedPnls closed))
      (BacktestReport.fromTradesWithFailures closed b b' failures).maxDrawdown := by
    show IsGreatest _ (BacktestReport.maxDrawdownOf (closedTrades closed) b)
    rw [maxDrawdownOf_eq]
    exact Lib.worstFall_isGreatest b (closedPnls closed)
  refine ⟨⟨hgreatest pnls, (hgreatest pnls).2 (Lib.zero_mem_falls pnls)⟩,
    ⟨hreport, hreport.unique (hgreatest _)⟩, fun h => ?_, agrees_of_inRange⟩
  obtain ⟨m, hm⟩ := h .checked
  obtain ⟨s, hs, -⟩ := Option.map_eq_some_iff.mp hm.found
  exact Sim.inRange_of_checked hs

/-- Two longs that lose nearly all of the highest price that there is. -/
def sampleLosses : List Sim.SimTrade :=
  [⟨1, 1, 2, 9223372036854775807, 1, -9223372036854775806, .signal⟩,
   ⟨1, 3, 4, 9223372036854775807, 1, -9223372036854775806, .signal⟩]

/-- The sum of the two losses wraps around to 4, and only one of them is found. -/
theorem sampleLosses_half_found :
    (Sim.maxDrawdown sampleLosses).toInt = 2 ^ 63 - 2 ∧
    Sim.maxDrawdownIn .checked sampleLosses = none ∧
    maxDrawdown (toDecimals (Sim.milli sampleLosses)) = 2 ^ 64 - 4 ∧
    ¬IsGreatest (falls (Sim.milli sampleLosses)) (Sim.maxDrawdown sampleLosses).toInt := by
  refine ⟨by decide +kernel, by decide +kernel, by decide +kernel, fun h => ?_⟩
  have hle : (2 ^ 64 - 4 : Int) ≤ (Sim.maxDrawdown sampleLosses).toInt :=
    h.2 ⟨0, 2, by decide, by decide, by decide +kernel⟩
  exact absurd hle (by decide +kernel)

end AutoTrader
