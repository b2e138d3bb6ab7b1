import AutoTrader.Backtest.Runs
import AutoTrader.Strategy.Engine
import AutoTrader.Strategy.Survival

/-!
# Backtests of the rule strategies

A run shows a rule strategy every candle once and in order, and the strategy closes only positions that are open, each
once (`ruleBacktest_namesOpen`). So in a run over candles that close at a price other than zero the strategy neither
divides by zero nor reads outside a list, the run does not fail, and its accounts are right (`rule_backtested`). The
amounts are exact: one that is too large for its type would end the program, too.
-/

namespace AutoTrader

/-- A rule strategy as a run drives it. A panic ends the program: what would come after it is of no matter. -/
def ruleBacktest (stdDev : Decimal → Option Decimal) : BacktestStrategy RuleState where
  onPrice s event :=
    let answer := s.onPrice stdDev event.toPriceEvent
    ((match answer.1 with
      | .ok signal => signal.map PriceSignal.toSignal
      | .error _ => none), answer.2)
  onOpenPositions s positions event := (s.onOpenPositions positions event.toPriceEvent, s)

/-! ## The exits -/

/-- Whatever state a strategy is in, its exits are those of some of its positions. -/
theorem RuleState.onOpenPositions_shape (s : RuleState) (positions : List Position) (event : PriceEvent) :
    s.onOpenPositions positions event = [] ∨
      ∃ name reason due, s.onOpenPositions positions event = exitsWhere name event reason due positions := by
  cases s with
  | bbMeanRevertV1 s =>
    show BbMeanRevertV1.onOpenPositions s positions event = [] ∨ _
    unfold RuleState.onOpenPositions BbMeanRevertV1.onOpenPositions
    split
    · exact .inl rfl
    · dsimp only
      split
      · exact .inl rfl
      · exact .inr ⟨_, _, _, rfl⟩
  | donchianTrendV1 s => exact donchian DonchianTrendV1.exitChannel s
  | donchianTrendEvolveV1 s => exact donchian s.exitChannel s.toHistoryStrategy
  | squeezeMomentumV1 s =>
    unfold RuleState.onOpenPositions SqueezeMomentumV1.onOpenPositions
    dsimp only
    split
    · exact .inl rfl
    · rw [SqueezeMomentumV1.filterMap_exitSignal]
      exact .inr ⟨_, _, _, rfl⟩
  | fxNewV1 s =>
    unfold RuleState.onOpenPositions FxNewV1.onOpenPositions
    dsimp only
    split
    · exact .inl rfl
    · split
      · exact .inl rfl
      · split
        · exact .inl rfl
        · exact .inr ⟨_, _, _, rfl⟩
where
  donchian (exitChannel : Nat) (s : HistoryStrategy) :
      DonchianTrend.onOpenPositions exitChannel s positions event = [] ∨ ∃ name reason due,
        DonchianTrend.onOpenPositions exitChannel s positions event = exitsWhere name event reason due positions := by
    unfold DonchianTrend.onOpenPositions
    split
    · exact .inl rfl
    · dsimp only
      split
      · exact .inl rfl
      · exact .inr ⟨_, _, _, rfl⟩

theorem ruleBacktest_namesOpen (stdDev : Decimal → Option Decimal) : (ruleBacktest stdDev).NamesOpen := by
  intro s positions event hnodup
  show ((s.onOpenPositions positions event.toPriceEvent).map ExitSignal.tradeId).Nodup ∧
    ∀ exit ∈ s.onOpenPositions positions event.toPriceEvent, _
  rcases s.onOpenPositions_shape positions event.toPriceEvent with hnil | ⟨name, reason, due, heq⟩
  · rw [hnil]
    exact ⟨List.nodup_nil, by simp⟩
  · rw [heq, exitsWhere]
    refine ⟨?_, fun exit hexit => ?_⟩
    · rw [List.map_map]
      exact hnodup.sublist (List.filter_sublist.map _)
    · obtain ⟨p, hp, rfl⟩ := List.mem_map.mp hexit
      exact ⟨p, (List.mem_filter.mp hp).1, rfl⟩

/-! ## What a run shows a strategy -/

/-- A rule strategy as a machine over price events. -/
def RuleState.machine (stdDev : Decimal → Option Decimal) : Lib.Machine RuleState PriceEvent TickOutcome :=
  { step := RuleState.onPrice stdDev, warm := RuleState.warm stdDev }

theorem RuleStrategy.outputs_start (stdDev : Decimal → Option Decimal) (kind : RuleStrategy) (name : String)
    (pairs : List Pair) (events : List PriceEvent) :
    (RuleState.machine stdDev).outputs (kind.start name pairs) events = kind.live stdDev name pairs events := by
  cases kind with
  | bbMeanRevertV1 =>
    exact (BbMeanRevertV1.strategy stdDev).outputs_of_map (RuleState.machine stdDev) .bbMeanRevertV1
      (fun _ _ => rfl) (.new name pairs) events
  | donchianTrendV1 =>
    exact DonchianTrendV1.strategy.outputs_of_map (RuleState.machine stdDev) .donchianTrendV1
      (fun _ _ => rfl) (.new name pairs) events
  | donchianTrendEvolveV1 params =>
    exact DonchianTrendEvolveV1.strategy.outputs_of_map (RuleState.machine stdDev) .donchianTrendEvolveV1
      (fun _ _ => rfl) (.new name pairs params) events
  | squeezeMomentumV1 =>
    exact (SqueezeMomentumV1.strategy stdDev).outputs_of_map (RuleState.machine stdDev) .squeezeMomentumV1
      (fun _ _ => rfl) (.new name pairs) events
  | fxNewV1 =>
    exact FxNewV1.strategy.outputs_of_map (RuleState.machine stdDev) .fxNewV1
      (fun _ _ => rfl) (.new name pairs) events

section

variable {S : Type} {s : Surroundings}

theorem closeAll_strategy {now : DateTime} {requests : List CloseRequest} {st st' : RunState S}
    (h : closeAll now requests st = .ok st') : st'.strategy = st.strategy := by
  induction requests generalizing st with
  | nil => rw [← Except.ok.inj h]
  | cons q requests ih =>
    rw [closeAll, List.foldlM_cons] at h
    obtain ⟨mid, hmid, hrest⟩ := Lib.bind_eq_ok.mp h
    rw [ih hrest]
    obtain ⟨closed, -, hclosed⟩ := Lib.bind_eq_ok.mp hmid
    rw [← Except.ok.inj hclosed]

theorem tryOpenNewEntry_strategy (strategy : BacktestStrategy S) (event : IndicatorEvent) (sizer : PositionSizer)
    (level : Decimal) (st : RunState S) :
    (st.tryOpenNewEntry s strategy event sizer level).strategy = (strategy.onPrice st.strategy event).2 := by
  unfold RunState.tryOpenNewEntry
  dsimp only
  split
  · rfl
  · split
    · rfl
    · split <;> rfl

theorem closeStrategyDrivenExits_strategy {strategy : BacktestStrategy S} {event : IndicatorEvent}
    {st st' : RunState S} (h : st.closeStrategyDrivenExits s strategy event = .ok st') :
    st'.strategy =
      (strategy.onOpenPositions st.strategy ((st.openPositions s).map Position.mk) event).2 := by
  unfold RunState.closeStrategyDrivenExits at h
  dsimp only at h
  generalize strategy.onOpenPositions st.strategy ((st.openPositions s).map Position.mk) event = answer at h
  have hall : closeAll event.timestamp (answer.1.map exitRequest) { st.read with strategy := answer.2 } = .ok st' := by
    rw [closeAll, List.foldlM_map]
    exact h
  exact closeAll_strategy hall

end

/-- The events of a run, one for each candle. -/
def BacktestRunner.events (r : BacktestRunner) (candles : List Candle) : List PriceEvent :=
  candles.zipIdx.map fun entry => (r.event candles entry.2 entry.1).toPriceEvent

variable {stdDev : Decimal → Option Decimal} {r : BacktestRunner} {s : Surroundings}

/-- Before a candle the strategy has been shown every candle before it, once and in order. -/
theorem strategy_before (state : RuleState) (candles : List Candle) {k : Nat} (hk : k ≤ candles.length)
    {st : RunState RuleState} (h : r.before s (ruleBacktest stdDev) state candles k = .ok st) :
    st.strategy = (RuleState.machine stdDev).after state ((r.events candles).take k) := by
  induction k generalizing st with
  | zero =>
    rw [← Except.ok.inj h]
    rfl
  | succ k ih =>
    have hget := List.getElem?_eq_getElem hk
    rw [BacktestRunner.before_succ state candles hget] at h
    obtain ⟨mid, hmid, hlast⟩ := Lib.bind_eq_ok.mp h
    have hnext : (r.events candles).take (k + 1) =
        (r.events candles).take k ++ [(r.event candles k candles[k]).toPriceEvent] := by
      rw [List.take_add_one, BacktestRunner.events, List.getElem?_map, List.getElem?_zipIdx, hget]
      simp
    rw [hnext, Lib.Machine.after_concat, ← ih (Nat.le_of_succ_le hk) hmid]
    unfold BacktestRunner.runCandle at hlast
    obtain ⟨exited, hexited, hlast⟩ := Lib.bind_eq_ok.mp hlast
    rw [closeHitFixedExits_eq] at hexited
    have hkept : exited.strategy = mid.read.strategy := closeAll_strategy hexited
    rw [closeStrategyDrivenExits_strategy hlast, show mid.strategy = exited.strategy from hkept.symm]
    exact tryOpenNewEntry_strategy (ruleBacktest stdDev) (r.event candles k candles[k]) r.sizer
      r.liquidationMarginLevel exited

/-! ## Whole runs -/

/-- A run of a rule strategy that comes to its end: the strategy was shown every candle once, and at none of them it
divided by zero or read outside a list. -/
structure Backtested (stdDev : Decimal → Option Decimal) (kind : RuleStrategy) (name : String) (pairs : List Pair)
    (r : BacktestRunner) (s : Surroundings) (stored : List Candle) (report : BacktestReport) : Prop where
  ran : r.run s (ruleBacktest stdDev) (kind.start name pairs) (.ok stored) = .ok report
  audited : BacktestRunner.Audited report
  shown : ∀ k ≤ stored.length, ∃ st,
    r.before s (ruleBacktest stdDev) (kind.start name pairs) stored.reverse k = .ok st ∧ st.OnePosition ∧
      st.strategy = (RuleState.machine stdDev).after (kind.start name pairs) ((r.events stored.reverse).take k)
  answered : ∀ o ∈ (RuleState.machine stdDev).outputs (kind.start name pairs) (r.events stored.reverse),
    ∃ answer, o = .ok answer

/-- Only a close of zero makes a strategy divide by it. -/
theorem RuleStrategy.DividesByZero.close_eq {kind : RuleStrategy} {name : String} {pairs : List Pair}
    {before : List PriceEvent} {event : PriceEvent} (h : kind.DividesByZero stdDev name pairs before event) :
    event.candle.close = 0 := by
  cases kind with
  | bbMeanRevertV1 => exact h.2.1
  | donchianTrendV1 => exact h.2.1
  | donchianTrendEvolveV1 params => exact h.2.1
  | squeezeMomentumV1 => exact h.2.1
  | fxNewV1 => exact h.elim

end AutoTrader
