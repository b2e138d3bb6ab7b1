import AutoTrader.Lib.Early
import AutoTrader.Market.CheckedIndicators
import AutoTrader.Strategy.Warmup

/-!
# Strategies and candles that close at zero

The stop of a signal is a part of the closing price, and only `FxNewV1` looks whether that price is zero.
`survives_iff` says of every strategy and every sequence of events when all answers are sound: no panic, and no
signal without a good stop and allocation. What the strategies compute before that division does not panic on any
history (`PanicFree`).
-/

namespace AutoTrader

open Lib (Fine fine_ite fine_bind fine_pure fine_failure)

namespace Answer

variable {α : Type} {P : α → Prop}

@[simp] theorem fine_ofOption {o : Option α} : Fine P (ofOption o) ↔ ∀ x ∈ o, P x := Lib.fine_mk_ok

@[simp] theorem fine_divide {P : Decimal → Prop} {a b : Decimal} : Fine P (divide a b) ↔ b ≠ 0 ∧ P (a / b) := by
  rw [divide]
  by_cases h : b = 0
  · rw [if_pos h]
    exact iff_of_false Lib.fine_mk_error fun h' => h'.1 h
  · rw [if_neg h, Lib.fine_mk_ok]
    simp [h]

@[simp] theorem fine_index {xs : List α} {i : Nat} : Fine P (index xs i) ↔ ∃ h : i < xs.length, P xs[i] := by
  by_cases h : i < xs.length
  · rw [index_eq h, fine_pure]
    simp [h]
  · rw [index, List.getElem?_eq_none (not_lt.mp h)]
    exact iff_of_false Lib.fine_mk_error fun h' => h h'.1

end Answer

/-! ## What a strategy may answer with -/

/-- A signal whose stop is no further than the cap and which asks for a part of the balance. -/
structure GoodSignal (cap : Decimal) (s : PriceSignal) : Prop where
  stop_pos : 0 < s.stopLossPct
  stop_le : s.stopLossPct ≤ cap
  allocation_pos : 0 < s.allocationPct
  allocation_le : s.allocationPct ≤ 1

/-- No panic, and no signal but a good one. -/
def Sound (cap : Decimal) (o : TickOutcome) : Prop := ∃ answer, o = .ok answer ∧ ∀ s ∈ answer, GoodSignal cap s

theorem sound_run {cap : Decimal} {a : Answer PriceSignal} : Sound cap a.run ↔ Fine (GoodSignal cap) a := Iff.rfl

theorem sound_none {cap : Decimal} : Sound cap (.ok none) := ⟨none, rfl, by simp⟩

/-- What passes the check of the volatility is a good stop. -/
theorem GoodSignal.of_tradable {cap quotient : Decimal} {s : PriceSignal} (hstop : s.stopLossPct = min quotient cap)
    (hallocation : s.allocationPct = 1) (h : ¬lacksTradableVolatility (min quotient cap)) : GoodSignal cap s where
  stop_pos := hstop ▸ not_le.mp h
  stop_le := hstop ▸ min_le_right quotient cap
  allocation_pos := hallocation ▸ one_pos
  allocation_le := hallocation.le

/-! ## Indicators of a long history -/

section

variable {prices : List Decimal} {history : List Candle} {period : Nat}

theorem exists_sma (h : period ≤ prices.length) : ∃ x, Indicators.sma prices period = some x :=
  ⟨_, if_neg (not_lt.mpr h)⟩

theorem exists_rsi (h : period < prices.length) : ∃ x, Indicators.rsi prices period = some x := by
  rw [Indicators.rsi, if_neg (by omega)]
  dsimp only
  split
  · exact ⟨_, rfl⟩
  · exact ⟨_, rfl⟩

theorem exists_atr (h : period < history.length) :
    ∃ x, Indicators.atr (highs history) (lows history) (closes history) period = some x := by
  rw [Indicators.atr, if_neg (by simp [highs, lows, closes]), if_neg (by rw [highs, List.length_map]; omega)]
  exact ⟨_, rfl⟩

theorem exists_channel (h : 0 < period) (hlen : period < history.length) :
    ∃ x, channelExcludingCurrentBar (highs history) (lows history) period = some x := by
  have hlows : ((lows history).take (history.length - 1)).drop (history.length - 1 - period) ≠ [] := by
    simp [lows]
    omega
  have hhighs : ((highs history).take (history.length - 1)).drop (history.length - 1 - period) ≠ [] := by
    simp [highs]
    omega
  obtain ⟨lower, hlower⟩ := Option.isSome_iff_exists.mp (List.isSome_min?_of_ne_nil hlows)
  obtain ⟨upper, hupper⟩ := Option.isSome_iff_exists.mp (List.isSome_max?_of_ne_nil hhighs)
  have hlen : (highs history).length = history.length := List.length_map _
  have hlens : (highs history).length = (lows history).length := by simp [highs, lows]
  have hsome : highs history ≠ [] := List.ne_nil_of_length_pos (by omega)
  refine ⟨(lower, upper), ?_⟩
  rw [channelExcludingCurrentBar, Indicators.donchianChannel, if_neg (not_not.mpr hlens), if_neg hsome]
  simp [hlen, hlower, hupper, show ¬history.length - 1 < period by omega]

end

namespace BbMeanRevertV1

variable (stdDev : Decimal → Option Decimal)

theorem fine_signal_iff {name : String} {history : List Candle} {event : PriceEvent} :
    Fine (GoodSignal slCap) (signal stdDev name history event) ↔ ¬(event.candle.close = 0 ∧
      minHistoryLenForSignal ≤ history.length ∧
      (Indicators.bollingerBands stdDev (closes history) bbPeriod bbStdDevMult).isSome) := by
  unfold signal
  simp only [fine_ite, fine_bind, fine_pure, fine_failure, Answer.fine_divide, Answer.fine_ofOption,
    Answer.fine_index, implies_true, true_and, and_true]
  by_cases hlen : history.length < minHistoryLenForSignal
  · simp [hlen]
  · have hmin : minHistoryLenForSignal = 21 := rfl
    have hcloses : (closes history).length = history.length := List.length_map _
    obtain ⟨rsi, hrsi⟩ := exists_rsi (show rsiPeriod < (closes history).length by rw [rsiPeriod]; omega)
    obtain ⟨atr, hatr⟩ := exists_atr (show atrPeriod < history.length by rw [atrPeriod]; omega)
    rcases Indicators.bollingerBands stdDev (closes history) bbPeriod bbStdDevMult with _ | bands
    · simp
    · simp only [hrsi, hatr, Option.mem_some_iff, forall_eq', hlen, not_false_eq_true, forall_true_left]
      refine (and_iff_left fun htradable => ?_).trans (by simp [not_lt.mp hlen])
      exact ⟨by omega, by omega, fun _ => .of_tradable rfl rfl htradable, fun _ _ => .of_tradable rfl rfl htradable⟩

/-- The event brings the strategy to the division by its closing price, which is zero. -/
def DividesByZero (s : HistoryStrategy) (event : PriceEvent) : Prop :=
  let history := pushCandle (s.history event.pair) event.candle historyLen
  s.Takes timeframe event ∧ event.candle.close = 0 ∧ minHistoryLenForSignal ≤ history.length ∧
    (Indicators.bollingerBands stdDev (closes history) bbPeriod bbStdDevMult).isSome

theorem sound_step_iff (s : HistoryStrategy) (event : PriceEvent) :
    Sound slCap ((strategy stdDev).step event s).1 ↔ ¬DividesByZero stdDev s event := by
  show Sound slCap (s.onPrice timeframe historyLen (signal stdDev) event).1 ↔ _
  unfold HistoryStrategy.onPrice DividesByZero
  by_cases htakes : s.Takes timeframe event
  · rw [if_pos htakes, and_iff_right htakes, sound_run, fine_signal_iff]
    simp [HistoryStrategy.push]
  · rw [if_neg htakes]
    exact iff_of_true sound_none fun h => htakes h.1

end BbMeanRevertV1

namespace DonchianTrend

theorem fine_signal_iff {channel bars : Nat} (hchannel : 0 < channel) {name : String} {history : List Candle}
    {event : PriceEvent} :
    Fine (GoodSignal slCap) (signal channel bars name history event) ↔ ¬(event.candle.close = 0 ∧
      minHistoryLenForEntry channel bars atrPeriod ≤ history.length ∧
      ∃ atr ∈ Indicators.atr (highs history) (lows history) (closes history) atrPeriod,
        ∃ baseline ∈ baselineAtrExcludingCurrentBar history bars atrPeriod, baseline < atr) := by
  unfold signal
  simp only [fine_ite, fine_bind, fine_pure, fine_failure, Answer.fine_divide, Answer.fine_ofOption,
    implies_true, true_and, and_true]
  by_cases hlen : history.length < minHistoryLenForEntry channel bars atrPeriod
  · simp [hlen]
  · have hmin : minHistoryLenForEntry channel bars atrPeriod = channel + bars + 14 + 1 := rfl
    obtain ⟨band, hband⟩ := exists_channel hchannel (show channel < history.length by omega)
    obtain ⟨atr, hatr⟩ := exists_atr (show atrPeriod < history.length by rw [atrPeriod]; omega)
    simp only [hband, hatr, Option.mem_some_iff, forall_eq', exists_eq_left', hlen, not_false_eq_true, forall_true_left,
      not_lt.mp hlen]
    rcases baselineAtrExcludingCurrentBar history bars atrPeriod with _ | baseline
    · simp
    · simp only [Option.mem_some_iff, forall_eq', exists_eq_left', not_le]
      by_cases hatr : baseline < atr
      · simp only [hatr, forall_true_left]
        refine (and_iff_left fun htradable => ?_).trans (by simp)
        exact ⟨fun _ => .of_tradable rfl rfl htradable, fun _ _ => .of_tradable rfl rfl htradable⟩
      · simp [hatr]

/-- The event brings the strategy to the division by its closing price, which is zero. -/
def DividesByZero (channel bars : Nat) (s : HistoryStrategy) (event : PriceEvent) : Prop :=
  let history := pushCandle (s.history event.pair) event.candle historyLen
  s.Takes timeframe event ∧ event.candle.close = 0 ∧ minHistoryLenForEntry channel bars atrPeriod ≤ history.length ∧
    ∃ atr ∈ Indicators.atr (highs history) (lows history) (closes history) atrPeriod,
      ∃ baseline ∈ baselineAtrExcludingCurrentBar history bars atrPeriod, baseline < atr

theorem sound_onPrice_iff {channel bars : Nat} (hchannel : 0 < channel) (s : HistoryStrategy) (event : PriceEvent) :
    Sound slCap (s.onPrice timeframe historyLen (signal channel bars) event).1 ↔
      ¬DividesByZero channel bars s event := by
  unfold HistoryStrategy.onPrice DividesByZero
  by_cases htakes : s.Takes timeframe event
  · rw [if_pos htakes, and_iff_right htakes, sound_run, fine_signal_iff hchannel]
    simp [HistoryStrategy.push]
  · rw [if_neg htakes]
    exact iff_of_true sound_none fun h => htakes h.1

end DonchianTrend

namespace SqueezeMomentumV1

variable (stdDev : Decimal → Option Decimal)

theorem fine_breakout_iff {name : String} {history : List Candle} {event : PriceEvent}
    (hlen : needed + 2 ≤ history.length) :
    Fine (GoodSignal slCap) (breakout name history event) ↔ event.candle.close ≠ 0 := by
  have hneeded : needed = 22 := rfl
  have hcloses : (closes history).length = history.length := List.length_map _
  obtain ⟨sma, hsma⟩ := exists_sma (show bbPeriod ≤ (closes history).length by rw [bbPeriod]; omega)
  obtain ⟨smaPrev, hsmaPrev⟩ := exists_sma
    (show bbPeriod ≤ ((closes history).take ((closes history).length - 1)).length by
      rw [bbPeriod, List.length_take]; omega)
  obtain ⟨atr, hatr⟩ := exists_atr (show atrPeriod < history.length by rw [atrPeriod]; omega)
  unfold breakout
  simp only [fine_ite, fine_bind, fine_pure, fine_failure, Answer.fine_divide, Answer.fine_ofOption,
    Answer.fine_index, implies_true, true_and, and_true, hsma, hsmaPrev, hatr, Option.mem_some_iff, forall_eq']
  constructor
  · rintro ⟨-, -, hclose, -⟩
    exact hclose
  · exact fun hclose => ⟨by omega, by omega, hclose, fun htradable =>
      ⟨fun _ => .of_tradable rfl rfl htradable, fun _ _ => .of_tradable rfl rfl htradable⟩⟩

/-- The event brings the strategy to the division by its closing price, which is zero. -/
def DividesByZero (s : SqueezeMomentumV1) (event : PriceEvent) : Prop :=
  let history := pushCandle (s.history event.pair) event.candle historyLen
  s.Takes timeframe event ∧ event.candle.close = 0 ∧ needed + 2 ≤ history.length ∧
    isInSqueeze stdDev history = some false ∧ squeezeBars ≤ s.squeezeCount event.pair

theorem sound_step_iff (s : SqueezeMomentumV1) (event : PriceEvent) :
    Sound slCap ((strategy stdDev).step event s).1 ↔ ¬DividesByZero stdDev s event := by
  show Sound slCap (onPrice stdDev event s).1 ↔ _
  unfold onPrice DividesByZero
  by_cases htakes : s.Takes timeframe event
  · rw [if_pos htakes, and_iff_right htakes]
    have hhistory : (s.push event.pair event.candle).history event.pair =
        pushCandle (s.history event.pair) event.candle historyLen := Function.update_self ..
    dsimp only
    rw [hhistory]
    by_cases hlen : (pushCandle (s.history event.pair) event.candle historyLen).length < needed + 2
    · rw [if_pos hlen]
      exact iff_of_true sound_none fun h => absurd hlen (not_lt.mpr h.2.1)
    · rw [if_neg hlen]
      rcases isInSqueeze stdDev (pushCandle (s.history event.pair) event.candle historyLen) with _ | _ | _
      · exact iff_of_true sound_none (by simp)
      · by_cases hcount : squeezeBars ≤ s.squeezeCount event.pair
        · simp [push, hcount, sound_run, fine_breakout_iff (not_lt.mp hlen), not_lt.mp hlen]
        · simp [push, hcount, sound_none]
      · exact iff_of_true sound_none (by simp)
  · rw [if_neg htakes]
    exact iff_of_true sound_none fun h => htakes h.1

end SqueezeMomentumV1

namespace FxNewV1

theorem fine_allocationFor {stopLossPct : Decimal} (h : 0 < stopLossPct) :
    Fine (fun a => 0 < a ∧ a ≤ 1) (allocationFor stopLossPct) := by
  have hdiv : 0 < gmoFxLeverage * stopLossPct := mul_pos (by decide +kernel) h
  unfold allocationFor
  rw [fine_bind, Answer.fine_divide]
  refine ⟨hdiv.ne', fine_pure.mpr ⟨lt_min (div_pos (by decide +kernel) hdiv) one_pos, min_le_right _ _⟩⟩

theorem fine_signal (s : FxNewV1) {candle : Candle} (h : IsValidCandle candle) (event : PriceEvent) :
    Fine (GoodSignal slCap) (s.signal candle event) := by
  unfold signal
  simp only [fine_ite, fine_bind, fine_pure, fine_failure, Answer.fine_divide, Answer.fine_ofOption,
    implies_true, true_and]
  intro _ _ _ atr _ hcount
  refine ⟨Nat.cast_ne_zero.mpr hcount, fun _ direction _ _ => ⟨h.2.2.2.ne', fun hstop => ?_⟩⟩
  refine (fine_allocationFor (not_le.mp hstop)).mono fun allocation hallocation => ?_
  exact ⟨not_le.mp hstop, min_le_right _ _, hallocation.1, hallocation.2⟩

theorem sound_step (s : FxNewV1) (event : PriceEvent) : Sound slCap (strategy.step event s).1 := by
  show Sound slCap (onPrice event s).1
  unfold onPrice
  by_cases haccepts : s.Accepts event
  · by_cases hh1 : event.candle.timeframe = "H1"
    · simp [haccepts, hh1, sound_none]
    · by_cases hm5 : event.candle.timeframe = "M5"
      · by_cases hvalid : IsValidCandle event.candle
        · simp only [haccepts, hm5, hvalid, not_true_eq_false, ↓reduceIte, ne_eq]
          rcases s.aggregateM15 event with ⟨_ | candle, t⟩
          · exact sound_none
          · by_cases hcandle : IsValidCandle candle
            · simp [hcandle, sound_run, fine_signal]
            · simp [hcandle, sound_none]
        · simp [haccepts, hm5, hvalid, sound_none]
      · simp [haccepts, hh1, hm5, sound_none]
  · simp [haccepts, sound_none]

end FxNewV1

/-! ## The baselines with their panics -/

/-- The average true range of some candles of a history, from one index to another. -/
def sliceAtr (history : List Candle) (period start «end» : Nat) : Except Panic (Option Decimal) := OptionT.run do
  let highs ← Answer.slice (highs history) start «end»
  let lows ← Answer.slice (lows history) start «end»
  let closes ← Answer.slice (closes history) start «end»
  Indicators.Checked.atr highs lows closes period

theorem sliceAtr_eq {history : List Candle} {period start «end» : Nat} (hperiod : 0 < period) (hstart : start ≤ «end»)
    (hend : «end» ≤ history.length) : sliceAtr history period start «end» =
      .ok (Indicators.atr (((highs history).take «end»).drop start) (((lows history).take «end»).drop start)
        (((closes history).take «end»).drop start) period) := by
  have hhighs : «end» ≤ (highs history).length := by rwa [highs, List.length_map]
  have hlows : «end» ≤ (lows history).length := by rwa [lows, List.length_map]
  have hcloses : «end» ≤ (closes history).length := by rwa [closes, List.length_map]
  rw [sliceAtr, Answer.slice_eq hstart hhighs, pure_bind, Answer.slice_eq hstart hlows, pure_bind,
    Answer.slice_eq hstart hcloses, pure_bind, Indicators.Checked.atr_eq hperiod]
  rfl

theorem filterMapM_ok {α β : Type} {f : α → Except Panic (Option β)} {g : α → Option β} {l : List α}
    (h : ∀ x ∈ l, f x = .ok (g x)) : l.filterMapM f = .ok (l.filterMap g) := by
  induction l with
  | nil => rfl
  | cons x l ih =>
    rw [List.filterMapM_cons, h x List.mem_cons_self, ih fun y hy => h y (List.mem_cons_of_mem _ hy)]
    cases hx : g x with
    | none => rw [List.filterMap_cons_none hx]; rfl
    | some y => rw [List.filterMap_cons_some hx]; rfl

/-- `baselineAtrExcludingCurrentBar`, with the slices it takes. -/
def checkedBaselineAtr (history : List Candle) (atrBaselineBars atrPeriod : Nat) : Answer Decimal :=
  if history.length < minHistoryLenForBaselineAtr atrBaselineBars atrPeriod then failure
  else do
    let latestPrior := history.length - 2
    let start := latestPrior + 1 - atrBaselineBars
    let ends := (List.range' start (latestPrior + 1 - start)).filter fun «end» => atrPeriod + 1 ≤ «end»
    let atrs ← OptionT.lift (ends.filterMapM fun «end» => sliceAtr history atrPeriod 0 («end» + 1))
    if atrs.length = 0 then failure else .divide atrs.sum (atrs.length : Decimal)

theorem checkedBaselineAtr_eq (history : List Candle) (bars : Nat) {period : Nat} (hperiod : 0 < period) :
    checkedBaselineAtr history bars period = .ofOption (baselineAtrExcludingCurrentBar history bars period) := by
  unfold checkedBaselineAtr baselineAtrExcludingCurrentBar
  by_cases hlen : history.length < minHistoryLenForBaselineAtr bars period
  · rw [if_pos hlen, if_pos hlen, Answer.ofOption_none]
  · rw [if_neg hlen, if_neg hlen]
    have hmin : minHistoryLenForBaselineAtr bars period = bars + period + 2 := rfl
    have hatrs : ((List.range' (history.length - 2 + 1 - bars)
          (history.length - 2 + 1 - (history.length - 2 + 1 - bars))).filter
        fun «end» => period + 1 ≤ «end»).filterMapM (fun «end» => sliceAtr history period 0 («end» + 1)) =
          .ok (baselineAtrs (highs history) (lows history) (closes history) (history.length - 2 + 1 - bars)
            (history.length - 2) period) := by
      refine filterMapM_ok fun «end» hend => ?_
      have hrange := List.mem_range'_1.mp (List.mem_filter.mp hend).1
      exact sliceAtr_eq hperiod (Nat.zero_le _) (by omega)
    dsimp only
    rw [hatrs]
    show (if (baselineAtrs _ _ _ _ _ _).length = 0 then failure else Answer.divide _ _) = _
    split
    · rfl
    · rename_i hcount
      rw [Answer.divide_eq (Nat.cast_ne_zero.mpr hcount), Answer.ofOption_some]

namespace FxNewV1

/-- The baseline of `FxNewV1`, with the slices it takes. -/
def checkedBaselineAtrs (history : List Candle) : Except Panic (List Decimal) :=
  let priorEnd := history.length - 1
  let baselineStart := priorEnd - (atrBaseline + atrPeriod)
  let first := baselineStart + atrPeriod + 1
  (List.range' first (priorEnd + 1 - first)).filterMapM fun «end» => sliceAtr history atrPeriod baselineStart «end»

theorem checkedBaselineAtrs_eq (history : List Candle) : checkedBaselineAtrs history = .ok (baselineAtrs history) := by
  unfold checkedBaselineAtrs
  dsimp only
  refine filterMapM_ok fun «end» hend => ?_
  have hrange := List.mem_range'_1.mp hend
  exact sliceAtr_eq (show 0 < atrPeriod by decide) (by omega) (by omega)

end FxNewV1

/-- No division by zero and no bad index before the division by the closing price: with its panics, everything that
the strategies compute of a history is what it is without them. -/
structure PanicFree (stdDev : Decimal → Option Decimal) : Prop where
  sma : ∀ prices period, 0 < period →
    Indicators.Checked.sma prices period = .ofOption (Indicators.sma prices period)
  rsi : ∀ prices period, 0 < period →
    Indicators.Checked.rsi prices period = .ofOption (Indicators.rsi prices period)
  bollingerBands : ∀ prices period stdDevMult, 0 < period →
    Indicators.Checked.bollingerBands stdDev prices period stdDevMult =
      .ofOption (Indicators.bollingerBands stdDev prices period stdDevMult)
  atr : ∀ highs lows closes period, 0 < period →
    Indicators.Checked.atr highs lows closes period = .ofOption (Indicators.atr highs lows closes period)
  donchianChannel : ∀ highs lows period includeCurrent,
    Indicators.Checked.donchianChannel highs lows period includeCurrent =
      .ofOption (Indicators.donchianChannel highs lows period includeCurrent)
  keltnerChannels : ∀ highs lows closes period atrMult, 0 < period →
    Indicators.Checked.keltnerChannels highs lows closes period atrMult =
      .ofOption (Indicators.keltnerChannels highs lows closes period atrMult)
  baselineAtr : ∀ history atrBaselineBars atrPeriod, 0 < atrPeriod →
    checkedBaselineAtr history atrBaselineBars atrPeriod =
      .ofOption (baselineAtrExcludingCurrentBar history atrBaselineBars atrPeriod)
  fxNewBaselineAtrs : ∀ history, FxNewV1.checkedBaselineAtrs history = .ok (FxNewV1.baselineAtrs history)

theorem panicFree (stdDev : Decimal → Option Decimal) : PanicFree stdDev where
  sma _ _ := Indicators.Checked.sma_eq
  rsi _ _ := Indicators.Checked.rsi_eq
  bollingerBands _ _ stdDevMult h := Indicators.Checked.bollingerBands_eq h stdDev stdDevMult
  atr _ _ _ _ := Indicators.Checked.atr_eq
  donchianChannel _ _ _ := Indicators.Checked.donchianChannel_eq
  keltnerChannels _ _ _ _ atrMult h := Indicators.Checked.keltnerChannels_eq h atrMult
  baselineAtr history bars _ := checkedBaselineAtr_eq history bars
  fxNewBaselineAtrs := FxNewV1.checkedBaselineAtrs_eq

/-! ## Every strategy -/

theorem DonchianTrendEvolveV1.entryChannel_after (s : DonchianTrendEvolveV1) (events : List PriceEvent) :
    (strategy.after s events).entryChannel = s.entryChannel ∧
      (strategy.after s events).atrBaselineBars = s.atrBaselineBars := by
  induction events generalizing s with
  | nil => exact ⟨rfl, rfl⟩
  | cons e events ih => exact ih (onPrice e s).2

namespace RuleStrategy

variable (stdDev : Decimal → Option Decimal) (name : String) (pairs : List Pair)

/-- The widest stop of each strategy. -/
def slCap : RuleStrategy → Decimal
  | bbMeanRevertV1 => BbMeanRevertV1.slCap
  | donchianTrendV1 => DonchianTrend.slCap
  | donchianTrendEvolveV1 _ => DonchianTrend.slCap
  | squeezeMomentumV1 => SqueezeMomentumV1.slCap
  | fxNewV1 => FxNewV1.slCap

/-- After the events before it, an event makes the strategy divide by a closing price of zero. -/
def DividesByZero (before : List PriceEvent) (event : PriceEvent) : RuleStrategy → Prop
  | bbMeanRevertV1 =>
    BbMeanRevertV1.DividesByZero stdDev ((BbMeanRevertV1.strategy stdDev).after (.new name pairs) before) event
  | donchianTrendV1 =>
    DonchianTrend.DividesByZero DonchianTrendV1.entryChannel DonchianTrendV1.atrBaselineBars
      (DonchianTrendV1.strategy.after (.new name pairs) before) event
  | donchianTrendEvolveV1 params =>
    let s := DonchianTrendEvolveV1.strategy.after (.new name pairs params) before
    DonchianTrend.DividesByZero s.entryChannel s.atrBaselineBars s.toHistoryStrategy event
  | squeezeMomentumV1 =>
    SqueezeMomentumV1.DividesByZero stdDev ((SqueezeMomentumV1.strategy stdDev).after (.new name pairs) before) event
  | fxNewV1 => False

/-- The strategy answers every event, and with no signal but a good one. -/
structure Survives (events : List PriceEvent) (strategy : RuleStrategy) : Prop where
  outcomes : ∀ o ∈ strategy.live stdDev name pairs events, Sound strategy.slCap o
  indicators : PanicFree stdDev

theorem outcomes_iff (events : List PriceEvent) (strategy : RuleStrategy) :
    (∀ o ∈ strategy.live stdDev name pairs events, Sound strategy.slCap o) ↔
      ∀ before event, before ++ [event] <+: events → ¬strategy.DividesByZero stdDev name pairs before event := by
  rcases strategy with _ | _ | params | _ | _
  · refine (Lib.Machine.forall_outputs_iff _ _ _).trans (forall₃_congr fun before event _ => ?_)
    exact BbMeanRevertV1.sound_step_iff stdDev _ event
  · refine (Lib.Machine.forall_outputs_iff _ _ _).trans (forall₃_congr fun before event _ => ?_)
    exact DonchianTrend.sound_onPrice_iff (show 0 < DonchianTrendV1.entryChannel by decide) _ event
  · refine (Lib.Machine.forall_outputs_iff _ _ _).trans (forall₃_congr fun before event _ => ?_)
    have hchannel : 10 ≤ (DonchianTrendEvolveV1.new name pairs params).entryChannel := le_max_left _ _
    rw [← (DonchianTrendEvolveV1.entryChannel_after _ before).1] at hchannel
    exact DonchianTrend.sound_onPrice_iff (by omega) _ event
  · refine (Lib.Machine.forall_outputs_iff _ _ _).trans (forall₃_congr fun before event _ => ?_)
    exact SqueezeMomentumV1.sound_step_iff stdDev _ event
  · refine (Lib.Machine.forall_outputs_iff _ _ _).trans (forall₃_congr fun before event _ => ?_)
    exact iff_of_true (FxNewV1.sound_step _ event) not_false

theorem survives_iff (events : List PriceEvent) (strategy : RuleStrategy) :
    strategy.Survives stdDev name pairs events ↔
      ∀ before event, before ++ [event] <+: events → ¬strategy.DividesByZero stdDev name pairs before event := by
  rw [← outcomes_iff]
  exact ⟨Survives.outcomes, fun h => ⟨h, panicFree stdDev⟩⟩

/-! ## A candle that closes at zero -/

/-- 54 hours at one price, and an hour in which the price falls to zero. -/
def sampleFall : List PriceEvent :=
  (List.range 55).map fun hour =>
    let bar := sampleBar hour (if hour < 54 then 100 else 0)
    { bar with candle := { bar.candle with «open» := 100, high := 100, low := bar.candle.close } }

/-- The last hour takes the average true range above its baseline, and the stop is a part of nothing. -/
theorem sampleFall_panics :
    (∀ e ∈ sampleFall, 0 ≤ e.candle.open ∧ 0 ≤ e.candle.high ∧ 0 ≤ e.candle.low ∧ 0 ≤ e.candle.close) ∧
      ¬donchianTrendV1.Survives exactDeviation "donchian" ["USD_JPY"] sampleFall := by
  refine ⟨by decide +kernel, fun h => ?_⟩
  have hpanic : .error .divisionByZero ∈ donchianTrendV1.live exactDeviation "donchian" ["USD_JPY"] sampleFall := by
    decide +kernel
  obtain ⟨answer, hanswer, -⟩ := h.outcomes _ hpanic
  cases hanswer

end RuleStrategy

end AutoTrader
