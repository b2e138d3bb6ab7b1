import AutoTrader.Lib.Window
import AutoTrader.Market.Indicators
import AutoTrader.Sim.CalcPrefix
import Mathlib.Tactic.Ring
import Mathlib.Tactic.Linarith
import Mathlib.Tactic.NormNum

/-!
# The indicators in exact arithmetic

With exact numbers the last value of each series is the indicator of the strategies over the whole history, which
computes it from scratch.
-/

namespace AutoTrader.Sim.Calc

open Lib (loopValues loopValues_concat window window_succ)

variable {closes highs lows : List Decimal} {period n m : Nat}

theorem sumOf_eq (xs : List Decimal) : sumOf xs = xs.sum := by
  rw [sumOf, List.sum_eq_foldl]
  rfl

/-- The last value of a loop over indices. -/
theorem last_loopValues_range' {σ ω : Type} (step : σ → Nat → σ) (value : σ → Nat → ω) (s : σ) (start n : Nat) :
    (loopValues step value s (List.range' start (n + 1)))[n]? =
      some (value ((List.range' start (n + 1)).foldl step s) (start + n)) := by
  rw [List.range'_1_concat, loopValues_concat, List.getElem?_append_right (by simp [Lib.length_loopValues])]
  simp [Lib.length_loopValues]

theorem last_loopValues {σ ω : Type} (step : σ → Nat → σ) (value : σ → Nat → ω) (s : σ) (n : Nat) :
    (loopValues step value s (List.range (n + 1)))[n]? =
      some (value ((List.range (n + 1)).foldl step s) n) := by
  rw [List.range_eq_range', last_loopValues_range', Nat.zero_add]

/-! ## Moving averages -/

theorem foldl_slide (xs : List Decimal) (hp : 0 < period) (hn : n ≤ xs.length) :
    (List.range n).foldl (slide xs period) ((0 : Nat) : Decimal) = (window xs period n).sum := by
  induction n with
  | zero => simp [Lib.window_zero]
  | succ n ih =>
    rw [List.range_succ, List.foldl_concat, ih (by omega), slide]
    rcases window_succ hp hn with ⟨hlt, hwindow⟩ | ⟨hge, mid, hbefore, hwindow⟩
    · rw [if_neg (by omega), hwindow, List.sum_append, List.sum_singleton]
    · rw [if_pos hge, hwindow, hbefore, List.sum_append, List.sum_cons, List.sum_singleton]
      ring

theorem last_smaSeries (hp : 1 ≤ period) (hn : closes.length = n + 1) :
    (smaSeries closes period)[n]? = some (Indicators.sma closes period) := by
  rw [smaSeries, if_neg (by omega), hn, last_loopValues, foldl_slide closes hp (by omega), Indicators.sma, hn]
  by_cases hwarm : period ≤ n + 1
  · rw [if_pos hwarm, if_neg (by omega), window, ← hn, List.take_length]
  · rw [if_neg hwarm, if_pos (by omega)]

/-- The last value of a series that begins with undefined ones and goes on with the states of a loop. -/
theorem last_scanl {α : Type} (step : Decimal → α → Decimal) (seed : Decimal) (es : List α) (k : Nat)
    (hn : n = k + es.length) :
    (allNan k ++ (es.scanl step seed).map some)[n]? = some (some (es.foldl step seed)) := by
  have hlast : n - k = es.length := by omega
  have hlen : (allNan k : List (Option Decimal)).length = k := List.length_replicate ..
  rw [List.getElem?_append_right (by omega), hlen, hlast, List.getElem?_map, List.getElem?_scanl,
    if_pos (le_refl _), List.take_length, Option.map_some]

theorem last_allNan {F : Type} (hn : n < m) : (allNan m : List (Option F))[n]? = some none := by
  rw [allNan, List.getElem?_replicate_of_lt hn]

theorem last_emaSeries (hp : 1 ≤ period) (hn : closes.length = n + 1) :
    (emaSeries closes period)[n]? = some (Indicators.ema closes period) := by
  unfold emaSeries Indicators.ema
  by_cases hwarm : closes.length < period
  · rw [if_pos (.inr hwarm), if_pos hwarm, last_allNan (by omega)]
  · have hlen : (closes.take period).length = period := by
      rw [List.length_take]
      omega
    have hsma : Indicators.sma (closes.take period) period =
        some (sumOf (closes.take period) / (period : Decimal)) := by
      rw [Indicators.sma, hlen, if_neg (Nat.lt_irrefl _), Nat.sub_self, List.drop_zero, sumOf_eq]
    have hmultiplier : (((2 : Nat) : Decimal) / ((period : Decimal) + ((1 : Nat) : Decimal))) =
        2 / ((period + 1 : Nat) : Decimal) := by
      push_cast
      ring
    rw [if_neg (by omega), if_neg hwarm]
    dsimp only
    rw [hsma, Option.map_some, ← hmultiplier, last_scanl _ _ _ _ (by rw [List.length_drop]; omega)]
    rfl

/-! ## Bands -/

theorem last_bbSeries (sqrt : Decimal → Decimal) (mult : Decimal) (hp : 1 ≤ period) (hn : closes.length = n + 1) :
    (bbSeries sqrt closes period mult)[n]? =
      some (Indicators.bollingerBands (fun variance => some (sqrt variance)) closes period mult) := by
  rw [bbSeries, if_neg (by omega), hn, last_loopValues, foldl_slide closes hp (by omega), Indicators.bollingerBands,
    Indicators.sma, hn]
  by_cases hwarm : period ≤ n + 1
  · rw [if_pos hwarm, if_neg (by omega), bbAt, window, ← hn, List.take_length, computeWindowVarianceDirectly, sumOf_eq]
    rfl
  · rw [if_neg hwarm, if_pos (by omega)]
    rfl

/-! ## Relative strength -/

theorem diffs_eq_changes (closes : List Decimal) : diffs closes = Indicators.changes closes := rfl

/-- What the sums and the counts of a window of changes are. -/
structure Strength.Of (window : List Decimal) (s : Strength Decimal) : Prop where
  gainSum : s.gainSum = (window.map fun d => if 0 < d then d else 0).sum
  lossSum : s.lossSum = (window.map fun d => if 0 < d then 0 else -d).sum
  gainCount : s.gainCount = window.countP fun d => decide (0 < d)
  lossCount : s.lossCount = window.countP fun d => decide (d < 0)

theorem Strength.Of.init : Strength.Of [] Strength.init := by
  constructor <;> simp [Strength.init]

theorem Strength.Of.add {window : List Decimal} {s : Strength Decimal} (h : s.Of window) (d : Decimal) :
    (s.add d).Of (window ++ [d]) := by
  obtain ⟨hgain, hloss, hgains, hlosses⟩ := h
  unfold Strength.add
  rw [Nat.cast_zero]
  by_cases hpos : 0 < d
  · have hneg : ¬d < 0 := not_lt.mpr hpos.le
    constructor <;> simp [hpos, hneg, hgain, hloss, hgains, hlosses]
  · by_cases hneg : d < 0
    · constructor <;> simp [hpos, hneg, hgain, hloss, hgains, hlosses]
    · constructor <;> simp [hpos, hneg, hgain, hloss, hgains, hlosses]

theorem Strength.Of.remove {window : List Decimal} {s : Strength Decimal} {old : Decimal}
    (h : s.Of (old :: window)) : (s.remove old).Of window := by
  obtain ⟨hgain, hloss, hgains, hlosses⟩ := h
  unfold Strength.remove
  rw [Nat.cast_zero]
  by_cases hpos : 0 < old
  · have hneg : ¬old < 0 := not_lt.mpr hpos.le
    constructor <;> simp [hpos, hneg, hgain, hloss, hgains, hlosses]
  · by_cases hneg : old < 0
    · constructor <;> simp [hpos, hneg, hgain, hloss, hgains, hlosses]
    · constructor <;> simp [hpos, hneg, hgain, hloss, hgains, hlosses]

/-- Exact sums are zero when there is nothing to sum. -/
theorem Strength.Of.zeroed {window : List Decimal} {s : Strength Decimal} (h : s.Of window) : s.zeroed = s := by
  have hgain : s.gainCount = 0 → s.gainSum = 0 := by
    intro hcount
    rw [h.gainCount, List.countP_eq_zero] at hcount
    rw [h.gainSum]
    refine List.sum_eq_zero fun x hx => ?_
    obtain ⟨d, hd, rfl⟩ := List.mem_map.mp hx
    exact if_neg (by simpa using hcount d hd)
  have hloss : s.lossCount = 0 → s.lossSum = 0 := by
    intro hcount
    rw [h.lossCount, List.countP_eq_zero] at hcount
    rw [h.lossSum]
    refine List.sum_eq_zero fun x hx => ?_
    obtain ⟨d, hd, rfl⟩ := List.mem_map.mp hx
    have hnn : 0 ≤ d := by simpa using hcount d hd
    by_cases hpos : 0 < d
    · exact if_pos hpos
    · rw [if_neg hpos]
      linarith
  have hkeep : ∀ {sum : Decimal} {count : Nat}, (count = 0 → sum = 0) →
      zeroSumExactlyWhenItsCountHitsZero sum count = sum := by
    intro sum count hzero
    rw [zeroSumExactlyWhenItsCountHitsZero, Nat.cast_zero]
    by_cases hcount : count = 0
    · rw [if_pos hcount, hzero hcount]
    · rw [if_neg hcount]
  rw [Strength.zeroed, hkeep hgain, hkeep hloss]

theorem strengthOf_foldl (ds : List Decimal) (hp : 1 ≤ period) (hn : n ≤ ds.length) :
    ((List.range n).foldl (Strength.step ds period) .init).Of (window ds period n) := by
  induction n with
  | zero =>
    rw [Lib.window_zero]
    exact .init
  | succ n ih =>
    have hadd := (ih (by omega)).add ds[n]!
    rw [List.range_succ, List.foldl_concat, Strength.step]
    rcases window_succ hp hn with ⟨hlt, hwindow⟩ | ⟨hge, mid, hbefore, hwindow⟩
    · rw [if_neg (by omega), hadd.zeroed, hwindow]
      exact hadd
    · rw [hbefore, List.cons_append] at hadd
      rw [if_pos hge, hadd.remove.zeroed, hwindow]
      exact hadd.remove

theorem foldl_addChange (totals : Decimal × Decimal) (ds : List Decimal) :
    ds.foldl Indicators.addChange totals =
      (totals.1 + (ds.map fun d => if 0 < d then d else 0).sum,
        totals.2 + (ds.map fun d => if 0 < d then 0 else -d).sum) := by
  induction ds generalizing totals with
  | nil => simp
  | cons d ds ih =>
    rw [List.foldl_cons, ih, Indicators.addChange]
    by_cases hpos : 0 < d
    · simp [hpos, add_assoc]
    · have habs : |d| = -d := abs_of_nonpos (not_lt.mp hpos)
      simp [hpos, habs, add_assoc]

theorem last_rsiSeries (hp : 1 ≤ period) (hn : closes.length = n + 1) :
    (rsiSeries closes period)[n]? = some (Indicators.rsi closes period) := by
  unfold rsiSeries Indicators.rsi
  by_cases hwarm : closes.length < period + 1
  · rw [if_pos (.inr hwarm), if_pos hwarm, last_allNan (by omega)]
  · obtain ⟨k, rfl⟩ : ∃ k, n = k + 1 := ⟨n - 1, by omega⟩
    have hlen : (diffs closes).length = k + 1 := by
      rw [length_diffs]
      omega
    have hof := strengthOf_foldl (diffs closes) hp (le_of_eq hlen.symm)
    have hrecent : window (diffs closes) period (k + 1) =
        (Indicators.changes closes).drop ((Indicators.changes closes).length - period) := by
      rw [← diffs_eq_changes, window, ← hlen, List.take_length]
    rw [if_neg (by omega), if_neg hwarm, List.getElem?_cons_succ, hlen, last_loopValues, if_pos (by omega)]
    dsimp only
    rw [foldl_addChange, ← hrecent]
    dsimp only
    rw [zero_add, zero_add, ← hof.gainSum, ← hof.lossSum, Strength.index]
    push_cast
    simp only [beq_iff_eq]
    split
    · rfl
    · rfl

/-! ## True ranges -/

theorem trueRanges_eq (hhighs : highs.length = n + 1) (hlows : lows.length = n + 1) (hcloses : closes.length = n + 1) :
    Indicators.trueRanges highs lows closes = (List.range' 1 n).map (trueRange highs lows closes) := by
  refine List.ext_getElem (by simp [Indicators.trueRanges]; omega) fun i h₁ h₂ => ?_
  rw [List.length_map, List.length_range'] at h₂
  have hhigh : highs[i + 1]! = highs[i + 1] := getElem!_pos highs (i + 1) (by omega)
  have hlow : lows[i + 1]! = lows[i + 1] := getElem!_pos lows (i + 1) (by omega)
  have hprev : closes[i]! = closes[i] := getElem!_pos closes i (by omega)
  have hk : 1 + 1 * i = i + 1 := by omega
  simp only [Indicators.trueRanges, List.getElem_map, List.getElem_zip, List.getElem_tail, List.getElem_range',
    trueRange, hk, Nat.add_sub_cancel, hhigh, hlow, hprev]
  rfl

theorem last_atrSeries (hp : 1 ≤ period) (hhighs : highs.length = n + 1) (hlows : lows.length = n + 1)
    (hcloses : closes.length = n + 1) :
    (atrSeries highs lows closes period)[n]? = some (Indicators.atr highs lows closes period) := by
  unfold atrSeries Indicators.atr
  rw [if_neg (show ¬(highs.length ≠ lows.length ∨ lows.length ≠ closes.length) by omega)]
  by_cases hwarm : closes.length < period + 1
  · rw [if_pos (.inr hwarm), if_pos (by omega), last_allNan (by omega)]
  · have htake : (List.range' 1 n).take period = List.range' 1 period := by
      rw [take_range', Nat.min_eq_left (by omega)]
    have hdrop : (List.range' 1 n).drop period = List.range' (period + 1) (closes.length - (period + 1)) := by
      rw [List.drop_range']
      congr 1
      · omega
      · omega
    rw [if_neg (by omega), if_neg (by omega)]
    dsimp only
    rw [last_scanl _ _ _ _ (by rw [List.length_range']; omega), trueRanges_eq hhighs hlows hcloses, ← List.map_take,
      ← List.map_drop, htake, hdrop, List.foldl_map, sumOf_eq]
    rfl

theorem last_keltnerSeries (mult : Decimal) (hp : 1 ≤ period) (hhighs : highs.length = n + 1)
    (hlows : lows.length = n + 1) (hcloses : closes.length = n + 1) :
    (keltnerSeries highs lows closes period mult)[n]? =
      some (Indicators.keltnerChannels highs lows closes period mult) := by
  rw [keltnerSeries, List.getElem?_zipWith, last_emaSeries hp hcloses, last_atrSeries hp hhighs hlows hcloses,
    Indicators.keltnerChannels]
  rcases Indicators.ema closes period with _ | ema
  · rfl
  · rcases Indicators.atr highs lows closes period with _ | atr
    · rfl
    · rfl

/-! ## Directional movement -/

/-- The movements and the true range of the pair of candles `j` and `j + 1`. -/
def movementAt (highs lows closes : List Decimal) (j : Nat) : Decimal × Decimal × Decimal :=
  (plusDm highs lows j, minusDm highs lows j, trueRange highs lows closes (j + 1))

theorem movements_eq (hhighs : highs.length = n + 1) (hlows : lows.length = n + 1) (hcloses : closes.length = n + 1) :
    Indicators.movements highs lows closes = (List.range n).map (movementAt highs lows closes) := by
  refine List.ext_getElem (by simp [Indicators.movements]; omega) fun i h₁ h₂ => ?_
  rw [List.length_map, List.length_range] at h₂
  have hhigh : highs[i + 1]! = highs[i + 1] := getElem!_pos highs (i + 1) (by omega)
  have hhigh' : highs[i]! = highs[i] := getElem!_pos highs i (by omega)
  have hlow : lows[i + 1]! = lows[i + 1] := getElem!_pos lows (i + 1) (by omega)
  have hlow' : lows[i]! = lows[i] := getElem!_pos lows i (by omega)
  have hprev : closes[i]! = closes[i] := getElem!_pos closes i (by omega)
  simp only [Indicators.movements, List.getElem_map, List.getElem_zip, List.getElem_tail, List.getElem_range,
    movementAt, plusDm, minusDm, trueRange, Indicators.directionalMovement, Nat.add_sub_cancel, hhigh, hhigh', hlow,
    hlow', hprev, Nat.cast_zero, gt_iff_lt]
  rfl

/-- The average of the index values, once there are enough of them. -/
def averageOf (period : Nat) (dxVals : List Decimal) : Option Decimal :=
  if dxVals.length < period then none
  else
    some ((dxVals.drop period).foldl (Indicators.wilderStep (period : Decimal))
      ((dxVals.take period).sum / (period : Decimal)))

theorem averageOf_concat {dxVals : List Decimal} (dx : Decimal) (hlen : period ≤ dxVals.length) :
    averageOf period (dxVals ++ [dx]) =
      (averageOf period dxVals).map fun avg => Indicators.wilderStep (period : Decimal) avg dx := by
  rw [averageOf, averageOf, if_neg (by rw [List.length_append]; omega), if_neg (by omega),
    List.drop_append_of_le_length hlen, List.take_append_of_le_length hlen, List.foldl_concat, Option.map_some]

/-- What the streaming state has made of the index values. -/
structure AdxState.UpToDate (period : Nat) (s : AdxState Decimal) : Prop where
  adxVal : s.adxVal = averageOf period s.dxVals
  consumed : period ≤ s.dxVals.length → s.consumed = s.dxVals.length

/-- Nothing is missed when at most one index value comes in. -/
theorem AdxState.UpToDate.takeUp {s : AdxState Decimal} (h : s.UpToDate period) (s' : AdxState Decimal)
    (hval : s'.adxVal = s.adxVal) (hconsumed : s'.consumed = s.consumed)
    (hdx : s'.dxVals = s.dxVals ∨ ∃ dx, s'.dxVals = s.dxVals ++ [dx]) :
    (s'.takeUp period).UpToDate period ∧ (s'.takeUp period).dxVals = s'.dxVals := by
  by_cases hlen : period ≤ s.dxVals.length
  · -- there is an average, and it takes up what came in
    obtain ⟨avg, havg⟩ : ∃ avg, s.adxVal = some avg := by
      rw [h.adxVal, averageOf, if_neg (by omega)]
      exact ⟨_, rfl⟩
    have htake : s'.takeUp period =
        { s' with
          adxVal := some ((s'.dxVals.drop s'.consumed).foldl (wilderStep (period : Decimal)) avg)
          consumed := s'.consumed + (s'.dxVals.drop s'.consumed).length } := by
      rw [AdxState.takeUp, hval, havg]
    rw [htake, hconsumed, h.consumed hlen]
    refine ⟨?_, rfl⟩
    rw [h.adxVal] at havg
    rcases hdx with hsame | ⟨dx, hmore⟩
    · refine ⟨?_, fun _ => ?_⟩
      · show some _ = averageOf period s'.dxVals
        rw [hsame, List.drop_length, havg, List.foldl_nil]
      · show s.dxVals.length + _ = s'.dxVals.length
        rw [hsame, List.drop_length, List.length_nil, Nat.add_zero]
    · refine ⟨?_, fun _ => ?_⟩
      · show some _ = averageOf period s'.dxVals
        rw [hmore, List.drop_left, averageOf_concat dx hlen, havg, Option.map_some]
        rfl
      · show s.dxVals.length + _ = s'.dxVals.length
        rw [hmore, List.drop_left, List.length_append]
  · have hnone : s'.adxVal = none := by
      rw [hval, h.adxVal, averageOf, if_pos (by omega)]
    have hle : s'.dxVals.length ≤ s.dxVals.length + 1 := by
      rcases hdx with hsame | ⟨dx, hmore⟩
      · rw [hsame]
        omega
      · rw [hmore, List.length_append, List.length_singleton]
    by_cases hseed : period ≤ s'.dxVals.length
    · -- there are just enough index values for the seed
      have hexact : s'.dxVals.length = period := by omega
      have htake : s'.takeUp period =
          { s' with
            adxVal := some (sumOf (s'.dxVals.take period) / (period : Decimal))
            consumed := period } := by
        rw [AdxState.takeUp, hnone]
        exact if_pos hseed
      rw [htake]
      refine ⟨⟨?_, fun _ => hexact.symm⟩, rfl⟩
      show some _ = averageOf period s'.dxVals
      rw [averageOf, if_neg (by omega), ← hexact, List.drop_length, sumOf_eq, List.foldl_nil]
    · have htake : s'.takeUp period = s' := by
        rw [AdxState.takeUp, hnone]
        exact if_neg hseed
      rw [htake]
      refine ⟨⟨?_, fun hge => absurd hge hseed⟩, rfl⟩
      rw [hnone, averageOf, if_pos (by omega)]

/-- The streaming state and the running totals from scratch. -/
structure AdxState.Matches (period : Nat) (d : Indicators.Directional) (s : AdxState Decimal) : Prop where
  plus : s.smoothPlus = d.plus
  minus : s.smoothMinus = d.minus
  tr : s.smoothTr = d.tr
  dxVals : s.dxVals = d.dxVals
  upToDate : s.UpToDate period

theorem AdxState.takeUp_totals (period : Nat) (s : AdxState Decimal) :
    (s.takeUp period).smoothPlus = s.smoothPlus ∧ (s.takeUp period).smoothMinus = s.smoothMinus ∧
      (s.takeUp period).smoothTr = s.smoothTr := by
  rw [AdxState.takeUp]
  split
  · split
    · exact ⟨rfl, rfl, rfl⟩
    · exact ⟨rfl, rfl, rfl⟩
  · exact ⟨rfl, rfl, rfl⟩

theorem dxOf_eq (plus minus tr : Decimal) : dxOf plus minus tr = Indicators.directionalIndex plus minus tr := by
  unfold dxOf Indicators.directionalIndex
  push_cast
  simp only [beq_iff_eq]
  rfl

theorem AdxState.Matches.step {d : Indicators.Directional} {s : AdxState Decimal} (h : s.Matches period d)
    (highs lows closes : List Decimal) (j : Nat) :
    (s.step highs lows closes period j).Matches period
      (d.step (period : Decimal) (movementAt highs lows closes j)) := by
  have hplus : smooth (period : Decimal) s.smoothPlus (plusDm highs lows j) =
      Indicators.smoothTotal period d.plus (movementAt highs lows closes j).1 := by
    rw [h.plus]
    rfl
  have hminus : smooth (period : Decimal) s.smoothMinus (minusDm highs lows j) =
      Indicators.smoothTotal period d.minus (movementAt highs lows closes j).2.1 := by
    rw [h.minus]
    rfl
  have htr : smooth (period : Decimal) s.smoothTr (trueRange highs lows closes (j + 1)) =
      Indicators.smoothTotal period d.tr (movementAt highs lows closes j).2.2 := by
    rw [h.tr]
    rfl
  unfold AdxState.step Indicators.Directional.step
  rw [hplus, hminus, htr]
  generalize Indicators.smoothTotal period d.plus (movementAt highs lows closes j).1 = plus
  generalize Indicators.smoothTotal period d.minus (movementAt highs lows closes j).2.1 = minus
  generalize Indicators.smoothTotal period d.tr (movementAt highs lows closes j).2.2 = tr
  dsimp only
  rw [includesInDxOnlyWhenSmoothTrIsNonzero, Nat.cast_zero, dxOf_eq]
  by_cases hzero : tr = 0
  · -- a candle without an index value
    have hout : ¬(!(tr == (0 : Decimal))) = true := by simp [hzero]
    rw [if_pos hzero, if_neg hout]
    generalize hs' : AdxState.mk plus minus tr s.dxVals s.adxVal s.consumed = s'
    obtain ⟨hup, hdx⟩ := h.upToDate.takeUp s' (by rw [← hs']) (by rw [← hs']) (.inl (by rw [← hs']))
    obtain ⟨htplus, htminus, httr⟩ := s'.takeUp_totals period
    rw [← hs'] at htplus htminus httr hdx hup ⊢
    exact ⟨htplus, htminus, httr, hdx.trans h.dxVals, hup⟩
  · have hin : (!(tr == (0 : Decimal))) = true := by simp [hzero]
    rw [if_neg hzero, if_pos hin]
    generalize hdx' : s.dxVals ++ [Indicators.directionalIndex plus minus tr] = dxVals
    generalize hs' : AdxState.mk plus minus tr dxVals s.adxVal s.consumed = s'
    obtain ⟨hup, hdx⟩ := h.upToDate.takeUp s' (by rw [← hs']) (by rw [← hs']) (.inr ⟨_, by rw [← hs', ← hdx']⟩)
    obtain ⟨htplus, htminus, httr⟩ := s'.takeUp_totals period
    rw [← hs'] at htplus htminus httr hdx hup ⊢
    exact ⟨htplus, htminus, httr, hdx.trans (by rw [← hdx', h.dxVals]), hup⟩

theorem matches_foldl {d : Indicators.Directional} {s : AdxState Decimal} (h : s.Matches period d)
    (highs lows closes : List Decimal) (js : List Nat) :
    (js.foldl (AdxState.step highs lows closes period) s).Matches period
      ((js.map (movementAt highs lows closes)).foldl (Indicators.Directional.step (period : Decimal)) d) := by
  induction js generalizing d s with
  | nil => exact h
  | cons j js ih => exact ih (h.step highs lows closes j)

theorem matches_seed (hp : 1 ≤ period) (highs lows closes : List Decimal) {ms : List (Decimal × Decimal × Decimal)}
    (hms : ms = (List.range period).map (movementAt highs lows closes)) :
    (AdxState.seed highs lows closes period).Matches period
      { plus := (ms.map (·.1)).sum, minus := (ms.map (·.2.1)).sum, tr := (ms.map (·.2.2)).sum, dxVals := [] } := by
  subst hms
  have hnone : averageOf period [] = none := if_pos hp
  refine ⟨?_, ?_, ?_, rfl, hnone.symm, fun hle => absurd hle (by simp [AdxState.seed]; omega)⟩
  · show sumOf ((List.range period).map (plusDm highs lows)) =
      (((List.range period).map (movementAt highs lows closes)).map (·.1)).sum
    rw [sumOf_eq, List.map_map]
    rfl
  · show sumOf ((List.range period).map (minusDm highs lows)) =
      (((List.range period).map (movementAt highs lows closes)).map (·.2.1)).sum
    rw [sumOf_eq, List.map_map]
    rfl
  · show sumOf ((List.range period).map fun j => trueRange highs lows closes (j + 1)) =
      (((List.range period).map (movementAt highs lows closes)).map (·.2.2)).sum
    rw [sumOf_eq, List.map_map]
    rfl

theorem last_adxSeries (hp : 1 ≤ period) (hhighs : highs.length = n + 1) (hlows : lows.length = n + 1)
    (hcloses : closes.length = n + 1) :
    (adxSeries highs lows closes period)[n]? = some (Indicators.adx highs lows closes period) := by
  unfold adxSeries Indicators.adx
  by_cases hwarm : closes.length < period * 2 + 1
  · rw [if_pos (.inr hwarm), if_pos (.inr (.inr hwarm)), last_allNan (by omega)]
  · obtain ⟨k, hk⟩ : ∃ k, n - period = k + 1 := ⟨n - period - 1, by omega⟩
    have hcount : closes.length - 1 - period = k + 1 := by omega
    have hlen : (Indicators.movements highs lows closes).length = n := by
      rw [movements_eq hhighs hlows hcloses, List.length_map, List.length_range]
    have hseeds : (Indicators.movements highs lows closes).take period =
        (List.range period).map (movementAt highs lows closes) := by
      rw [movements_eq hhighs hlows hcloses, ← List.map_take, List.take_range, Nat.min_eq_left (by omega)]
    have hrest : (Indicators.movements highs lows closes).drop period =
        (List.range' period (k + 1)).map (movementAt highs lows closes) := by
      rw [movements_eq hhighs hlows hcloses, ← List.map_drop, List.range_eq_range', List.drop_range', hk]
      congr 2
      omega
    have hmatches := matches_foldl (matches_seed hp highs lows closes hseeds) highs lows closes
      (List.range' period (k + 1))
    have hnan : (allNan (period + 1) : List (Option Decimal)).length = period + 1 := List.length_replicate ..
    have hlast : n - (period + 1) = k := by omega
    rw [if_neg (by omega), if_neg (by omega)]
    dsimp only
    rw [if_neg (by omega), hcount, List.getElem?_append_right (by omega), hnan, hlast, last_loopValues_range', hrest,
      hmatches.upToDate.adxVal, hmatches.dxVals]
    rfl

/-! ## Channels -/

/-- The deques of a window. -/
theorem frontBest_foldl (highs lows : List Decimal) (hp : 1 ≤ period) (n : Nat) :
    Lib.FrontBest (fun a b => decide (highs[a]! ≤ highs[b]!)) (n - period) n
        ((List.range n).foldl (Deques.step highs lows period) ⟨[], []⟩).maxDq ∧
      Lib.FrontBest (fun a b => decide (lows[b]! ≤ lows[a]!)) (n - period) n
        ((List.range n).foldl (Deques.step highs lows period) ⟨[], []⟩).minDq := by
  induction n with
  | zero =>
    rw [Nat.zero_sub]
    exact ⟨.nil, .nil⟩
  | succ n ih =>
    rw [List.range_succ, List.foldl_concat, Deques.step_maxDq, Deques.step_minDq]
    refine ⟨ih.1.move (fun a b c => ?_) (fun a b => ?_) hp, ih.2.move (fun a b c => ?_) (fun a b => ?_) hp⟩
    · simp only [decide_eq_true_eq]
      exact le_trans
    · simp only [decide_eq_true_eq]
      exact le_total _ _
    · simp only [decide_eq_true_eq]
      exact fun hba hcb => le_trans hcb hba
    · simp only [decide_eq_true_eq]
      exact le_total _ _

theorem max?_window {xs : List Decimal} {dq : List Nat} (hn : n ≤ xs.length) (hp : 1 ≤ period) (hpos : 0 < n)
    (h : Lib.FrontBest (fun a b => decide (xs[a]! ≤ xs[b]!)) (n - period) n dq) :
    ∃ front, dq.head? = some front ∧ (window xs period n).max? = some xs[front]! := by
  have htrans : ∀ a b c : Nat, decide (xs[a]! ≤ xs[b]!) = true → decide (xs[b]! ≤ xs[c]!) = true →
      decide (xs[a]! ≤ xs[c]!) = true := by
    intro a b c
    simp only [decide_eq_true_eq]
    exact le_trans
  obtain ⟨front, hfront, hlo, hhi, hbest⟩ := h.front htrans (by omega)
  refine ⟨front, hfront, List.max?_eq_some_iff.mpr ⟨(Lib.mem_window hn).mpr ⟨front, hlo, hhi, rfl⟩, fun b hb => ?_⟩⟩
  obtain ⟨k, hk, hk', rfl⟩ := (Lib.mem_window hn).mp hb
  exact of_decide_eq_true (hbest k hk hk')

theorem min?_window {xs : List Decimal} {dq : List Nat} (hn : n ≤ xs.length) (hp : 1 ≤ period) (hpos : 0 < n)
    (h : Lib.FrontBest (fun a b => decide (xs[b]! ≤ xs[a]!)) (n - period) n dq) :
    ∃ front, dq.head? = some front ∧ (window xs period n).min? = some xs[front]! := by
  have htrans : ∀ a b c : Nat, decide (xs[b]! ≤ xs[a]!) = true → decide (xs[c]! ≤ xs[b]!) = true →
      decide (xs[c]! ≤ xs[a]!) = true := by
    intro a b c
    simp only [decide_eq_true_eq]
    exact fun hba hcb => le_trans hcb hba
  obtain ⟨front, hfront, hlo, hhi, hbest⟩ := h.front htrans (by omega)
  refine ⟨front, hfront, List.min?_eq_some_iff.mpr ⟨(Lib.mem_window hn).mpr ⟨front, hlo, hhi, rfl⟩, fun b hb => ?_⟩⟩
  obtain ⟨k, hk, hk', rfl⟩ := (Lib.mem_window hn).mp hb
  exact of_decide_eq_true (hbest k hk hk')

theorem last_donchianSeries (hp : 1 ≤ period) (hhighs : highs.length = n + 1) (hlows : lows.length = n + 1) :
    (donchianSeries highs lows period)[n]? = some (Indicators.donchianChannel highs lows period true) := by
  obtain ⟨hmax, hmin⟩ := frontBest_foldl highs lows hp (n + 1)
  obtain ⟨highest, hhighest, hmaxWindow⟩ := max?_window (le_of_eq hhighs.symm) hp (Nat.succ_pos n) hmax
  obtain ⟨lowest, hlowest, hminWindow⟩ := min?_window (le_of_eq hlows.symm) hp (Nat.succ_pos n) hmin
  have hne : highs ≠ [] := List.ne_nil_of_length_pos (by omega)
  rw [Indicators.donchianChannel, if_neg (show ¬highs.length ≠ lows.length by omega), if_neg hne]
  dsimp only
  rw [if_pos rfl, donchianSeries, if_neg (show ¬period = 0 by omega), hhighs, last_loopValues]
  by_cases hwarm : period ≤ n + 1
  · rw [if_pos hwarm, if_neg (show ¬n + 1 < period by omega), donchianAt, hlowest, hhighest, ← window, ← window,
      hminWindow, hmaxWindow]
    rfl
  · rw [if_neg hwarm, if_pos (show n + 1 < period by omega)]

end AutoTrader.Sim.Calc
