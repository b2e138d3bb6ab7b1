import AutoTrader.Sim.ExactCalc

/-!
# The indicators of the simulator and of live trading

In exact arithmetic, with one square root for both, the value that `compute` writes at a bar is what the
indicator of live trading makes of the bars up to that one (`compute_eq_live`): it is undefined where the
indicator gives nothing, and the same number elsewhere.
-/

namespace AutoTrader.Sim

/-- The value of an indicator at one bar. -/
inductive IndicatorValue (F : Type) where
  | single (value : F)
  | band (lower middle upper : F)
  | channel (lower upper : F)

/-- What a series has at a bar. -/
def IndicatorSeries.valueAt {F : Type} (i : Nat) : IndicatorSeries F → Option (IndicatorValue F)
  | single values => values[i]?.map .single
  | band lower middle upper =>
    match lower[i]?, middle[i]?, upper[i]? with
    | some lower, some middle, some upper => some (.band lower middle upper)
    | _, _, _ => none
  | channel lower upper =>
    match lower[i]?, upper[i]? with
    | some lower, some upper => some (.channel lower upper)
    | _, _ => none

theorem IndicatorSeries.valueAt_take {F : Type} (s : IndicatorSeries F) (i : Nat) :
    (s.take (i + 1)).valueAt i = s.valueAt i := by
  have hlt : i < i + 1 := Nat.lt_succ_self i
  rcases s with values | ⟨lower, middle, upper⟩ | ⟨lower, upper⟩
  · simp only [take, valueAt, List.getElem?_take_of_lt hlt]
  · simp only [take, valueAt, List.getElem?_take_of_lt hlt]
  · simp only [take, valueAt, List.getElem?_take_of_lt hlt]

namespace Calc

/-- The value of a band. -/
def bandValue {F : Type} (band : Option (BandOf F)) : IndicatorValue (Option F) :=
  .band (band.map (·.1)) (band.map (·.2.1)) (band.map (·.2.2))

/-- The value of a channel. -/
def channelValue {F : Type} (channel : Option (F × F)) : IndicatorValue (Option F) :=
  .channel (channel.map (·.1)) (channel.map (·.2))

theorem valueAt_bandsOf {F : Type} {values : List (Option (BandOf F))} {i : Nat} {band : Option (BandOf F)}
    (h : values[i]? = some band) : (bandsOf values).valueAt i = some (bandValue band) := by
  simp only [bandsOf, IndicatorSeries.valueAt, List.getElem?_map, h, Option.map_some, bandValue]

theorem valueAt_channelOf {F : Type} {values : List (Option (F × F))} {i : Nat} {channel : Option (F × F)}
    (h : values[i]? = some channel) : (channelOf values).valueAt i = some (channelValue channel) := by
  simp only [channelOf, IndicatorSeries.valueAt, List.getElem?_map, h, Option.map_some, channelValue]

/-- The indicator of live trading that a key names, over a whole history. -/
def liveValue (sqrt : Decimal → Decimal) (key : IndicatorKey) (highs lows closes : List Decimal) :
    IndicatorValue (Option Decimal) :=
  let mult : Decimal := key.multX100 / 100
  match key.kind with
  | .sma => .single (Indicators.sma closes key.period)
  | .ema => .single (Indicators.ema closes key.period)
  | .rsi => .single (Indicators.rsi closes key.period)
  | .atr => .single (Indicators.atr highs lows closes key.period)
  | .adx => .single (Indicators.adx highs lows closes key.period)
  | .bb => bandValue (Indicators.bollingerBands (fun variance => some (sqrt variance)) closes key.period mult)
  | .donchian => channelValue (Indicators.donchianChannel highs lows key.period true)
  | .keltner => bandValue (Indicators.keltnerChannels highs lows closes key.period mult)

/-- The last values, of a series with bars. -/
theorem compute_last (sqrt : Decimal → Decimal) (series : TfSeries Decimal) (key : IndicatorKey) {n : Nat}
    (hp : 1 ≤ key.period) (hhigh : series.high.length = n + 1) (hlow : series.low.length = n + 1)
    (hclose : series.close.length = n + 1) :
    (compute sqrt series key).valueAt n = some (liveValue sqrt key series.high series.low series.close) := by
  have hsingle : ∀ {values : List (Option Decimal)} {value : Option Decimal}, values[n]? = some value →
      (IndicatorSeries.single values).valueAt n = some (.single value) := by
    intro values value h
    rw [IndicatorSeries.valueAt, h, Option.map_some]
  have hmult : (key.multX100 : Decimal) / ((100 : Nat) : Decimal) = key.multX100 / 100 := by norm_num
  rcases key with ⟨tf, kind, period, multX100⟩
  rcases kind with _ | _ | _ | _ | _ | _ | _ | _
  · exact hsingle (last_smaSeries hp hclose)
  · exact hsingle (last_emaSeries hp hclose)
  · exact hsingle (last_rsiSeries hp hclose)
  · exact hsingle (last_atrSeries hp hhigh hlow hclose)
  · exact hsingle (last_adxSeries hp hhigh hlow hclose)
  · rw [compute, liveValue, hmult]
    exact valueAt_bandsOf (last_bbSeries sqrt _ hp hclose)
  · exact valueAt_channelOf (last_donchianSeries hp hhigh hlow)
  · rw [compute, liveValue, hmult]
    exact valueAt_bandsOf (last_keltnerSeries _ hp hhigh hlow hclose)

theorem compute_eq_live (sqrt : Decimal → Decimal) (series : TfSeries Decimal) (key : IndicatorKey) {i : Nat}
    (hperiod : 1 ≤ key.period) (hhigh : series.high.length = series.close.length)
    (hlow : series.low.length = series.close.length) (hi : i < series.close.length) :
    (compute sqrt series key).valueAt i =
      some (liveValue sqrt key (series.high.take (i + 1)) (series.low.take (i + 1)) (series.close.take (i + 1))) := by
  have hlen : ∀ {xs : List Decimal}, xs.length = series.close.length → (xs.take (i + 1)).length = i + 1 := by
    intro xs hxs
    rw [List.length_take]
    omega
  rw [← IndicatorSeries.valueAt_take, ← compute_take]
  exact compute_last sqrt (series.take (i + 1)) key hperiod (hlen hhigh) (hlen hlow) (hlen rfl)

/-- Four bars. -/
def sampleSeries : TfSeries Decimal where
  opening := [100, 101, 103, 102]
  high := [101, 104, 105, 103]
  low := [99, 100, 102, 98]
  close := [101, 103, 102, 99]
  endTime := [300, 600, 900, 1200]

theorem sampleSeries_live :
    (compute id sampleSeries ⟨.m5, .adx, 1, 0⟩).valueAt 3 =
      some (liveValue id ⟨.m5, .adx, 1, 0⟩ sampleSeries.high sampleSeries.low sampleSeries.close) :=
  compute_eq_live id sampleSeries ⟨.m5, .adx, 1, 0⟩ (Nat.le_refl 1) rfl rfl (by decide)

end Calc

end AutoTrader.Sim
