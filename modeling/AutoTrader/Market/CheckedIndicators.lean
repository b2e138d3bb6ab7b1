import AutoTrader.Core.Event
import AutoTrader.Market.Indicators
import Mathlib.Algebra.Order.Field.Rat

/-!
# Indicators with their panics

The indicators of `Market.Indicators` once more, with every division, every index and every slice written out as the
program does it: a step that may panic. For a period that is not zero none of them does, and the value is that of
the total function (`sma_eq`, `ema_eq`, `rsi_eq`, `bollingerBands_eq`, `atr_eq`, `donchianChannel_eq`,
`keltnerChannels_eq`).
-/

namespace AutoTrader

namespace Answer

variable {α β : Type}

/-- The elements from one index to another. -/
def slice (xs : List α) (start «end» : Nat) : Answer (List α) :=
  OptionT.mk (if start ≤ «end» ∧ «end» ≤ xs.length then .ok (some ((xs.take «end»).drop start))
    else .error .indexOutOfRange)

@[simp] theorem ofOption_none : ofOption (none : Option α) = failure := rfl

@[simp] theorem ofOption_some (x : α) : ofOption (some x) = pure x := rfl

theorem ofOption_bind (o : Option α) (f : α → Option β) :
    ofOption (o >>= f) = ofOption o >>= fun x => ofOption (f x) := by
  cases o <;> rfl

@[simp] theorem failure_bind (f : α → Answer β) : (failure >>= f) = failure := rfl

theorem divide_eq {a b : Decimal} (h : b ≠ 0) : divide a b = pure (a / b) := by
  rw [divide, if_neg h]
  rfl

theorem index_eq {xs : List α} {i : Nat} (h : i < xs.length) : index xs i = pure xs[i] := by
  rw [index, List.getElem?_eq_getElem h]
  rfl

theorem slice_eq {xs : List α} {start «end» : Nat} (h : start ≤ «end») (h' : «end» ≤ xs.length) :
    slice xs start «end» = pure ((xs.take «end»).drop start) := by
  rw [slice, if_pos ⟨h, h'⟩]
  rfl

/-- A loop none of whose steps stops or panics. -/
theorem mapM_eq {f : α → Answer β} {g : α → β} {l : List α} (h : ∀ x ∈ l, f x = pure (g x)) :
    l.mapM f = pure (l.map g) := by
  induction l with
  | nil => rfl
  | cons x l ih =>
    rw [List.mapM_cons, h x List.mem_cons_self, pure_bind, ih fun y hy => h y (List.mem_cons_of_mem _ hy), pure_bind]
    rfl

theorem foldlM_eq {f : β → α → Answer β} {g : β → α → β} (h : ∀ b x, f b x = pure (g b x)) (l : List α) (b : β) :
    l.foldlM f b = pure (l.foldl g b) := by
  induction l generalizing b with
  | nil => rfl
  | cons x l ih => rw [List.foldlM_cons, h, pure_bind, ih, List.foldl_cons]

end Answer

namespace Indicators.Checked

/-- `Indicators.sma`, with the slices it takes. -/
def sma (prices : List Decimal) (period : Nat) : Answer Decimal :=
  if prices.length < period then failure
  else do .divide (← .slice prices (prices.length - period) prices.length).sum (period : Decimal)

/-- `Indicators.ema`, with the slices it takes. -/
def ema (prices : List Decimal) (period : Nat) : Answer Decimal :=
  if prices.length < period then failure
  else do
    let multiplier ← .divide 2 ((period + 1 : Nat) : Decimal)
    let seed ← sma (← .slice prices 0 period) period
    return (← .slice prices period prices.length).foldl (emaStep multiplier) seed

/-- `Indicators.rsi`, with the slices it takes. -/
def rsi (prices : List Decimal) (period : Nat) : Answer Decimal :=
  if prices.length < period + 1 then failure
  else do
    let changes := changes prices
    let recent ← .slice changes (changes.length - period) changes.length
    let totals := recent.foldl addChange (0, 0)
    let avgGain ← .divide totals.1 (period : Decimal)
    let avgLoss ← .divide totals.2 (period : Decimal)
    if avgLoss = 0 then return 100
    else
      let rs ← .divide avgGain avgLoss
      return 100 - (← .divide 100 (1 + rs))

/-- `Indicators.bollingerBands`, with the slices it takes. -/
def bollingerBands (stdDev : Decimal → Option Decimal) (prices : List Decimal) (period : Nat) (stdDevMult : Decimal) :
    Answer (Decimal × Decimal × Decimal) := do
  let middle ← sma prices period
  let window ← .slice prices (prices.length - period) prices.length
  let variance ← .divide (window.map fun p => (p - middle) * (p - middle)).sum (period : Decimal)
  let stdDev ← .ofOption (stdDev variance)
  let band := stdDev * stdDevMult
  return (middle - band, middle, middle + band)

/-- The true range of a candle, from the closing price before it. -/
def trueRangeAt (highs lows closes : List Decimal) (i : Nat) : Answer Decimal := do
  let high ← .index highs i
  let low ← .index lows i
  let prevClose ← .index closes (i - 1)
  return trueRange high low prevClose

/-- `Indicators.atr`, with the slices it takes. -/
def atr (highs lows closes : List Decimal) (period : Nat) : Answer Decimal :=
  if highs.length ≠ lows.length ∨ lows.length ≠ closes.length then failure
  else if highs.length < period + 1 then failure
  else do
    let trs ← (List.range' 1 (highs.length - 1)).mapM (trueRangeAt highs lows closes)
    let seed ← .divide (← .slice trs 0 period).sum (period : Decimal)
    (← .slice trs period trs.length).foldlM (fun avg tr => .divide (avg * (period - 1) + tr) (period : Decimal)) seed

/-- `Indicators.donchianChannel`, with the slices it takes. -/
def donchianChannel (highs lows : List Decimal) (period : Nat) (includeCurrent : Bool) :
    Answer (Decimal × Decimal) :=
  if highs.length ≠ lows.length then failure
  else if highs = [] then failure
  else
    let «end» := if includeCurrent then highs.length else highs.length - 1
    if «end» < period then failure
    else do
      let lower ← .ofOption (← .slice lows («end» - period) «end»).min?
      let upper ← .ofOption (← .slice highs («end» - period) «end»).max?
      return (lower, upper)

/-- `Indicators.keltnerChannels`, over the checked averages. -/
def keltnerChannels (highs lows closes : List Decimal) (period : Nat) (atrMult : Decimal) :
    Answer (Decimal × Decimal × Decimal) := do
  let middle ← ema closes period
  let atrVal ← atr highs lows closes period
  let band := atrVal * atrMult
  return (middle - band, middle, middle + band)

/-! ## No indicator panics -/

section

variable {prices highs lows closes : List Decimal} {period : Nat}

theorem sma_eq (h : 0 < period) : sma prices period = .ofOption (Indicators.sma prices period) := by
  have hperiod : (period : Decimal) ≠ 0 := Nat.cast_ne_zero.mpr h.ne'
  unfold sma Indicators.sma
  by_cases hlen : prices.length < period
  · rw [if_pos hlen, if_pos hlen, Answer.ofOption_none]
  · rw [if_neg hlen, if_neg hlen, Answer.slice_eq (by omega) le_rfl, pure_bind, Answer.divide_eq hperiod,
      List.take_length, Answer.ofOption_some]

theorem ema_eq (h : 0 < period) : ema prices period = .ofOption (Indicators.ema prices period) := by
  have hdiv : ((period + 1 : Nat) : Decimal) ≠ 0 := Nat.cast_ne_zero.mpr (by omega)
  unfold ema Indicators.ema
  by_cases hlen : prices.length < period
  · rw [if_pos hlen, if_pos hlen, Answer.ofOption_none]
  · rw [if_neg hlen, if_neg hlen, Answer.divide_eq hdiv, pure_bind, Answer.slice_eq (by omega) (by omega), pure_bind,
      List.drop_zero, sma_eq h, Answer.slice_eq (by omega) le_rfl, List.take_length]
    cases Indicators.sma (prices.take period) period <;> rfl

/-- The gains of some changes are not negative, and neither are the losses. -/
theorem foldl_addChange_nonneg (changes : List Decimal) {totals : Decimal × Decimal} (h : 0 ≤ totals.1)
    (h' : 0 ≤ totals.2) : 0 ≤ (changes.foldl addChange totals).1 ∧ 0 ≤ (changes.foldl addChange totals).2 := by
  induction changes generalizing totals with
  | nil => exact ⟨h, h'⟩
  | cons change changes ih =>
    rw [List.foldl_cons]
    by_cases hgain : change > 0
    · rw [addChange, if_pos hgain]
      exact ih (add_nonneg h hgain.le) h'
    · rw [addChange, if_neg hgain]
      exact ih h (add_nonneg h' (abs_nonneg change))

theorem rsi_eq (h : 0 < period) : rsi prices period = .ofOption (Indicators.rsi prices period) := by
  have hperiod : (period : Decimal) ≠ 0 := Nat.cast_ne_zero.mpr h.ne'
  have hpos : (0 : Decimal) ≤ period := Nat.cast_nonneg period
  unfold rsi Indicators.rsi
  by_cases hlen : prices.length < period + 1
  · rw [if_pos hlen, if_pos hlen, Answer.ofOption_none]
  · rw [if_neg hlen, if_neg hlen]
    dsimp only
    have hnonneg := foldl_addChange_nonneg ((changes prices).drop ((changes prices).length - period))
      (le_refl (0, 0).1) (le_refl (0, 0).2)
    rw [Answer.slice_eq (by omega) le_rfl, pure_bind, List.take_length, Answer.divide_eq hperiod, pure_bind,
      Answer.divide_eq hperiod, pure_bind]
    generalize ((changes prices).drop ((changes prices).length - period)).foldl addChange (0, 0) = totals at hnonneg ⊢
    by_cases hloss : totals.2 / (period : Decimal) = 0
    · rw [if_pos hloss, if_pos hloss, Answer.ofOption_some]
    · have hrs : 1 + totals.1 / (period : Decimal) / (totals.2 / (period : Decimal)) ≠ 0 := by
        have hquot := div_nonneg (div_nonneg hnonneg.1 hpos) (div_nonneg hnonneg.2 hpos)
        exact (add_pos_of_pos_of_nonneg one_pos hquot).ne'
      rw [if_neg hloss, if_neg hloss, Answer.divide_eq hloss, pure_bind, Answer.divide_eq hrs, pure_bind,
        Answer.ofOption_some]

theorem bollingerBands_eq (h : 0 < period) (stdDev : Decimal → Option Decimal) (stdDevMult : Decimal) :
    bollingerBands stdDev prices period stdDevMult =
      .ofOption (Indicators.bollingerBands stdDev prices period stdDevMult) := by
  have hperiod : (period : Decimal) ≠ 0 := Nat.cast_ne_zero.mpr h.ne'
  unfold bollingerBands Indicators.bollingerBands
  rw [sma_eq h, Answer.ofOption_bind]
  refine bind_congr fun middle => ?_
  rw [Answer.slice_eq (by omega) le_rfl, pure_bind, List.take_length, Answer.divide_eq hperiod, pure_bind,
    Answer.ofOption_bind]
  rfl

theorem trueRangeAt_eq (hlows : highs.length = lows.length) (hcloses : lows.length = closes.length) {i : Nat}
    (hi : i ∈ List.range' 1 (highs.length - 1)) :
    trueRangeAt highs lows closes i = pure ((trueRanges highs lows closes)[i - 1]!) := by
  obtain ⟨hpos, hlt⟩ := List.mem_range'_1.mp hi
  rw [trueRangeAt, Answer.index_eq (by omega), pure_bind, Answer.index_eq (by omega), pure_bind,
    Answer.index_eq (by omega), pure_bind]
  have hlen : i - 1 < (trueRanges highs lows closes).length := by
    simp [trueRanges]
    omega
  rw [getElem!_pos (trueRanges highs lows closes) (i - 1) hlen]
  simp only [trueRanges, List.getElem_map, List.getElem_zip, List.getElem_tail]
  simp only [show i - 1 + 1 = i by omega]

theorem mapM_trueRangeAt (hlows : highs.length = lows.length) (hcloses : lows.length = closes.length) :
    (List.range' 1 (highs.length - 1)).mapM (trueRangeAt highs lows closes) = pure (trueRanges highs lows closes) := by
  rw [Answer.mapM_eq fun i hi => trueRangeAt_eq hlows hcloses hi]
  congr 1
  have hlen : (trueRanges highs lows closes).length = highs.length - 1 := by
    simp [trueRanges]
    omega
  refine List.ext_getElem (by simp [hlen]) fun i h h' => ?_
  rw [List.getElem_map, List.getElem_range', getElem!_pos (trueRanges highs lows closes) _ (by omega)]
  simp only [show 1 + 1 * i - 1 = i by omega]

theorem atr_eq (h : 0 < period) :
    atr highs lows closes period = .ofOption (Indicators.atr highs lows closes period) := by
  have hperiod : (period : Decimal) ≠ 0 := Nat.cast_ne_zero.mpr h.ne'
  unfold atr Indicators.atr
  by_cases hlens : highs.length ≠ lows.length ∨ lows.length ≠ closes.length
  · rw [if_pos hlens, if_pos hlens, Answer.ofOption_none]
  · by_cases hlen : highs.length < period + 1
    · rw [if_neg hlens, if_neg hlens, if_pos hlen, if_pos hlen, Answer.ofOption_none]
    · rw [if_neg hlens, if_neg hlens, if_neg hlen, if_neg hlen]
      rw [not_or, not_not, not_not] at hlens
      have htrs : (trueRanges highs lows closes).length = highs.length - 1 := by
        simp [trueRanges]
        omega
      rw [mapM_trueRangeAt hlens.1 hlens.2, pure_bind, Answer.slice_eq (by omega) (by omega), pure_bind,
        Answer.divide_eq hperiod, pure_bind, Answer.slice_eq (by omega) le_rfl, pure_bind, List.take_length,
        Answer.foldlM_eq fun avg tr => Answer.divide_eq hperiod]
      rfl

theorem donchianChannel_eq (includeCurrent : Bool) : donchianChannel highs lows period includeCurrent =
    .ofOption (Indicators.donchianChannel highs lows period includeCurrent) := by
  unfold donchianChannel Indicators.donchianChannel
  by_cases hlens : highs.length ≠ lows.length
  · rw [if_pos hlens, if_pos hlens, Answer.ofOption_none]
  · by_cases hempty : highs = []
    · rw [if_neg hlens, if_neg hlens, if_pos hempty, if_pos hempty, Answer.ofOption_none]
    · rw [if_neg hlens, if_neg hlens, if_neg hempty, if_neg hempty]
      dsimp only
      have hend : (if includeCurrent then highs.length else highs.length - 1) ≤ highs.length := by
        split <;> omega
      generalize (if includeCurrent then highs.length else highs.length - 1) = «end» at hend ⊢
      by_cases hlen : «end» < period
      · rw [if_pos hlen, if_pos hlen, Answer.ofOption_none]
      · rw [if_neg hlen, if_neg hlen, Answer.slice_eq (by omega) (by omega), pure_bind, Answer.ofOption_bind]
        refine bind_congr fun lower => ?_
        rw [Answer.slice_eq (by omega) (by omega), pure_bind, Answer.ofOption_bind]
        rfl

theorem keltnerChannels_eq (h : 0 < period) (atrMult : Decimal) : keltnerChannels highs lows closes period atrMult =
    .ofOption (Indicators.keltnerChannels highs lows closes period atrMult) := by
  unfold keltnerChannels Indicators.keltnerChannels
  rw [ema_eq h, Answer.ofOption_bind]
  refine bind_congr fun middle => ?_
  rw [atr_eq h, Answer.ofOption_bind]
  rfl

end

end Indicators.Checked

end AutoTrader
