import AutoTrader.Lib.Recent
import AutoTrader.Strategy.Exits
import AutoTrader.Strategy.M15
import AutoTrader.Strategy.Warmup

/-!
# Which positions a strategy exits

`ExitDue` says of each rule strategy when it asks to close a position, by the candles it has been shown and nothing
else; `RuleState.onOpenPositions_eq` is that its exits are exactly those, whatever mixture of warm-up and live
events the candles came in.
-/

namespace AutoTrader

open Lib (dropLast_rtake length_rtake map_rtake rtake_concat rtake_rtake)

/-! ## What a strategy has been shown -/

namespace HistoryStrategy

/-- The candles of a pair that a strategy for a timeframe and some pairs takes, oldest first. -/
def taken (timeframe : String) (pairs : List Pair) (pair : Pair) (events : List PriceEvent) : List Candle :=
  (events.filter fun e => e.candle.timeframe = timeframe ∧ e.pair ∈ pairs ∧ e.pair = pair).map PriceEvent.candle

theorem taken_concat (timeframe : String) (pairs : List Pair) (pair : Pair) (events : List PriceEvent)
    (event : PriceEvent) :
    taken timeframe pairs pair (events ++ [event]) =
      if (event.candle.timeframe = timeframe ∧ event.pair ∈ pairs) ∧ event.pair = pair then
        taken timeframe pairs pair events ++ [event.candle]
      else taken timeframe pairs pair events := by
  unfold taken
  rw [List.filter_append, List.map_append]
  split
  · rename_i h
    rw [List.filter_cons_of_pos (by simpa using ⟨h.1.1, h.1.2, h.2⟩)]
    simp
  · rename_i h
    rw [List.filter_cons_of_neg (by simpa using fun a b c => h ⟨⟨a, b⟩, c⟩)]
    simp

/-- The strategy has been shown some events, and kept the last candles of each pair. -/
structure Saw (timeframe : String) (historyLen : Nat) (name : String) (pairs : List Pair) (events : List PriceEvent)
    (s : HistoryStrategy) : Prop where
  name_eq : s.name = name
  pairs_eq : s.pairs = pairs
  history_eq : ∀ p, s.history p = (taken timeframe pairs p events).rtake historyLen

variable {timeframe : String} {historyLen : Nat} {name : String} {pairs : List Pair} {events : List PriceEvent}
  {s : HistoryStrategy}

theorem saw_new (timeframe : String) (historyLen : Nat) (name : String) (pairs : List Pair) :
    Saw timeframe historyLen name pairs [] (new name pairs) :=
  ⟨rfl, rfl, fun _ => (List.rtake_nil historyLen).symm⟩

theorem Saw.push (h : Saw timeframe historyLen name pairs events s) {event : PriceEvent}
    (htakes : s.Takes timeframe event) :
    Saw timeframe historyLen name pairs (events ++ [event]) (s.push historyLen event.pair event.candle) := by
  have htakes' : event.candle.timeframe = timeframe ∧ event.pair ∈ pairs := ⟨htakes.1, h.pairs_eq ▸ htakes.2⟩
  refine ⟨h.name_eq, h.pairs_eq, fun p => ?_⟩
  rw [taken_concat]
  show Function.update s.history event.pair _ p = _
  by_cases hp : event.pair = p
  · rw [if_pos ⟨htakes', hp⟩, ← hp, Function.update_self, h.history_eq]
    exact rtake_concat ..
  · rw [if_neg fun h' => hp h'.2, Function.update_of_ne (Ne.symm hp), h.history_eq]

theorem Saw.skip (h : Saw timeframe historyLen name pairs events s) {event : PriceEvent}
    (hskip : ¬s.Takes timeframe event) : Saw timeframe historyLen name pairs (events ++ [event]) s := by
  refine ⟨h.name_eq, h.pairs_eq, fun p => ?_⟩
  rw [taken_concat, if_neg, h.history_eq]
  exact fun h' => hskip ⟨h'.1.1, h.pairs_eq.symm ▸ h'.1.2⟩

theorem Saw.warmup (h : Saw timeframe historyLen name pairs events s) (event : PriceEvent) :
    Saw timeframe historyLen name pairs (events ++ [event]) (s.warmup timeframe historyLen event) := by
  unfold HistoryStrategy.warmup
  split
  · rename_i htakes
    exact h.push htakes
  · rename_i hskip
    exact h.skip hskip

theorem Saw.onPrice (h : Saw timeframe historyLen name pairs events s)
    (signal : String → List Candle → PriceEvent → Answer PriceSignal) (event : PriceEvent) :
    Saw timeframe historyLen name pairs (events ++ [event]) (s.onPrice timeframe historyLen signal event).2 := by
  rw [← s.warmup_eq_onPrice]
  exact h.warmup event

/-- A pair has candles only if the strategy is for it. -/
theorem taken_eq_nil {pair : Pair} (h : pair ∉ pairs) (timeframe : String) (events : List PriceEvent) :
    taken timeframe pairs pair events = [] := by
  rw [taken, List.map_eq_nil_iff, List.filter_eq_nil_iff]
  intro e _ he
  have : e.pair ∈ pairs ∧ e.pair = pair := by simpa using (of_decide_eq_true he).2
  exact h (this.2 ▸ this.1)

end HistoryStrategy

/-- The exits are those of the positions of a strategy on the pair of an event that are due. -/
def ExitsExactly (name : String) (event : PriceEvent) (reason : StrategyExitReason) (due : Trade → Prop)
    (positions : List Position) (exits : List ExitSignal) : Prop :=
  ∃ d : Trade → Bool, (∀ t, d t = true ↔ due t) ∧ exits = exitsWhere name event reason d positions

theorem exitsExactly_nil {name : String} {event : PriceEvent} {reason : StrategyExitReason} {due : Trade → Prop}
    (h : ∀ t, ¬due t) (positions : List Position) : ExitsExactly name event reason due positions [] := by
  refine ⟨fun _ => false, fun t => iff_of_false Bool.false_ne_true (h t), ?_⟩
  simp [exitsWhere]

/-! ## The rules -/

/-- The price has touched a level in the direction of the profit. -/
def Candle.touches (c : Candle) (direction : Direction) (target : Decimal) : Prop :=
  match direction with
  | .long => target ≤ c.high
  | .short => c.low ≤ target

/-- A close is beyond a candle, against a position. -/
def Candle.brokenBy (c : Candle) (direction : Direction) (close : Decimal) : Prop :=
  match direction with
  | .long => close < c.low
  | .short => c.high < close

namespace BbMeanRevertV1

/-- The position has earned one R and the close has come back to the average of the last 20 closes. -/
def ExitDue (seen : List Candle) (event : PriceEvent) (t : Trade) : Prop :=
  event.candle.timeframe = timeframe ∧ t.reachedOneRAt event.candle.close = true ∧ bbPeriod ≤ seen.length ∧
    meanReached t event.candle.close (((closes seen).rtake bbPeriod).sum / (bbPeriod : Decimal)) = true

end BbMeanRevertV1

namespace DonchianTrend

/-- The position has earned one R and the close is beyond each of the candles of the channel before it. -/
def ExitDue (exitChannel : Nat) (seen : List Candle) (event : PriceEvent) (t : Trade) : Prop :=
  event.candle.timeframe = timeframe ∧ t.reachedOneRAt event.candle.close = true ∧ exitChannel < seen.length ∧
    ∀ c ∈ seen.dropLast.rtake exitChannel, c.brokenBy t.direction event.candle.close

end DonchianTrend

namespace SqueezeMomentumV1

/-- The position has been held for three bars and has earned one R, and the close is three average true ranges from
the extreme of one of the last 22 candles. -/
def ExitDue (seen : List Candle) (event : PriceEvent) (t : Trade) : Prop :=
  event.candle.timeframe = timeframe ∧ t.reachedOneRAt event.candle.close = true ∧ chandelierPeriod ≤ seen.length ∧
    delayBars < (seen.rtake historyLen).countP (fun c => floorToHour t.entryAt ≤ c.timestamp) ∧
    ∃ atr, 0 < atr ∧
      Indicators.atr (highs (seen.rtake historyLen)) (lows (seen.rtake historyLen)) (closes (seen.rtake historyLen))
        atrPeriod = some atr ∧
      ∃ c ∈ seen.rtake chandelierPeriod, match t.direction with
        | .long => event.candle.close < c.high - atr * chandelierAtrMult
        | .short => c.low + atr * chandelierAtrMult < event.candle.close

end SqueezeMomentumV1

namespace FxNewV1

/-- The candle of an event goes into the aggregation. -/
def takesM5 (pairs : List Pair) (event : PriceEvent) : Prop :=
  event.exchange = fxNewExchange ∧ event.pair ∈ pairs ∧ event.candle.timeframe = "M5" ∧ IsValidCandle event.candle

instance (pairs : List Pair) : DecidablePred (takesM5 pairs) :=
  fun _ => inferInstanceAs (Decidable (_ ∧ _ ∧ _ ∧ _))

/-- The M5 candles of a pair that go into the aggregation. -/
def m5Of (pairs : List Pair) (pair : Pair) (events : List PriceEvent) : List PriceEvent :=
  events.filter fun e => takesM5 pairs e ∧ e.pair = pair

/-- The M15 candles that the aggregation makes of the events of a pair. -/
def madeM15 (pairs : List Pair) (pair : Pair) (events : List PriceEvent) : List Candle :=
  ((aggregator.outputs (new "" pairs) (m5Of pairs pair events)).filterMap id).filter fun c => IsValidCandle c

/-- A candle after the entry has touched one R, and the close is beyond each of the last eight M15 candles. -/
def ExitDue (pairs : List Pair) (made : List Candle) (event : PriceEvent) (t : Trade) : Prop :=
  let kept := made.rtake historyLen
  let closed := kept.filter fun c => m15End c ≤ event.candle.timestamp
  takesM5 pairs event ∧ exitChannel ≤ closed.length ∧ StopOnCorrectSide t.direction t.entryPrice t.stopLoss ∧
    (∃ c, (c ∈ kept ∧ t.entryAt < m15End c ∨ c = event.candle) ∧
      c.touches t.direction (t.entryPrice + (t.entryPrice - t.stopLoss))) ∧
    ∀ c ∈ closed.rtake exitChannel, c.brokenBy t.direction event.candle.close

end FxNewV1

/-! ## The exits follow the rules -/

/-- The candles that a channel is taken over. -/
def channelCandles (history : List Candle) (includeCurrent : Bool) : List Candle :=
  if includeCurrent then history else history.dropLast

/-- A channel is there when its candles are, and it is their lowest low and their highest high. -/
theorem donchianChannel_cases (history : List Candle) {period : Nat} (hpos : 0 < period) (includeCurrent : Bool) :
    (Indicators.donchianChannel (highs history) (lows history) period includeCurrent = none ∧
      (channelCandles history includeCurrent).length < period) ∨
    ∃ lower upper,
      Indicators.donchianChannel (highs history) (lows history) period includeCurrent = some (lower, upper) ∧
      period ≤ (channelCandles history includeCurrent).length ∧
      (lows ((channelCandles history includeCurrent).rtake period)).min? = some lower ∧
      (highs ((channelCandles history includeCurrent).rtake period)).max? = some upper := by
  have hlows : (lows history).length = history.length := List.length_map ..
  have hhighs : (highs history).length = history.length := List.length_map ..
  have hend : (if includeCurrent = true then (highs history).length else (highs history).length - 1) =
      (channelCandles history includeCurrent).length := by
    cases includeCurrent <;> simp [channelCandles, hhighs]
  have htake : ∀ f : Candle → Decimal, (history.map f).take (channelCandles history includeCurrent).length =
      (channelCandles history includeCurrent).map f := by
    intro f
    cases includeCurrent with
    | true => exact List.take_of_length_le (by simp [channelCandles])
    | false =>
      show (history.map f).take history.dropLast.length = history.dropLast.map f
      rw [List.length_dropLast, List.dropLast_eq_take, List.map_take]
  have hwindow : ∀ f : Candle → Decimal,
      ((history.map f).take (channelCandles history includeCurrent).length).drop
        ((channelCandles history includeCurrent).length - period) =
      ((channelCandles history includeCurrent).rtake period).map f := by
    intro f
    rw [htake, map_rtake, List.rtake, List.length_map]
  unfold Indicators.donchianChannel
  rw [if_neg (by rw [hhighs, hlows]; exact fun h => h rfl)]
  by_cases hnil : highs history = []
  · left
    have hempty : history = [] := List.map_eq_nil_iff.mp hnil
    refine ⟨if_pos hnil, ?_⟩
    rw [hempty]
    cases includeCurrent <;> exact hpos
  · rw [if_neg hnil]
    dsimp only
    rw [hend]
    by_cases hshort : (channelCandles history includeCurrent).length < period
    · exact .inl ⟨if_pos hshort, hshort⟩
    · right
      have hne : (channelCandles history includeCurrent).rtake period ≠ [] := by
        apply List.ne_nil_of_length_pos
        rw [length_rtake]
        omega
      obtain ⟨lower, hlower⟩ := Option.ne_none_iff_exists'.mp
        (mt List.min?_eq_none_iff.mp (mt List.map_eq_nil_iff.mp hne : lows _ ≠ []))
      obtain ⟨upper, hupper⟩ := Option.ne_none_iff_exists'.mp
        (mt List.max?_eq_none_iff.mp (mt List.map_eq_nil_iff.mp hne : highs _ ≠ []))
      refine ⟨lower, upper, ?_, not_lt.mp hshort, hlower, hupper⟩
      rw [if_neg hshort, show ((lows history).take _).drop _ = lows _ from hwindow Candle.low,
        show ((highs history).take _).drop _ = highs _ from hwindow Candle.high, hlower, hupper]
      rfl

theorem breaks_iff {t : Trade} {close exitLow exitHigh : Decimal} {window : List Candle}
    (hlow : (lows window).min? = some exitLow) (hhigh : (highs window).max? = some exitHigh) :
    t.breaks close exitLow exitHigh = true ↔ ∀ c ∈ window, c.brokenBy t.direction close := by
  unfold Trade.breaks Candle.brokenBy
  cases t.direction with
  | long =>
    rw [decide_eq_true_iff, Lib.lt_min?_iff hlow]
    simp [lows]
  | short =>
    rw [decide_eq_true_iff, gt_iff_lt, Lib.max?_lt_iff hhigh]
    simp [highs]

namespace BbMeanRevertV1

theorem onOpenPositions_exactly {name : String} {pairs : List Pair} {events : List PriceEvent} {s : HistoryStrategy}
    (h : s.Saw timeframe historyLen name pairs events) (positions : List Position) (event : PriceEvent) :
    ExitsExactly name event .meanReached (ExitDue (HistoryStrategy.taken timeframe pairs event.pair events) event)
      positions (onOpenPositions s positions event) := by
  unfold onOpenPositions ExitDue
  split
  · rename_i hframe
    exact exitsExactly_nil (fun t ht => hframe ht.1) positions
  · rename_i hframe
    dsimp only
    rw [h.history_eq, h.name_eq]
    generalize HistoryStrategy.taken timeframe pairs event.pair events = seen
    have hcloses : closes (seen.rtake historyLen) = (closes seen).rtake historyLen := map_rtake ..
    have hlen : (closes seen).length = seen.length := List.length_map ..
    have hlong : (bbPeriod ≤ seen.length) ↔ ¬((closes seen).rtake historyLen).length < bbPeriod := by
      rw [length_rtake, hlen]
      have : bbPeriod = 20 := rfl
      have : historyLen = 200 := rfl
      omega
    rw [hcloses, Indicators.sma]
    split
    · rename_i hshort
      exact exitsExactly_nil (fun t ht => hlong.mp ht.2.2.1 (by by_contra hge; simp [hge] at hshort)) positions
    · rename_i middle hmiddle
      refine ⟨_, fun t => ?_, rfl⟩
      split at hmiddle
      · cases hmiddle
      · rename_i hge
        have hmean : (((closes seen).rtake historyLen).rtake bbPeriod).sum / (bbPeriod : Decimal) = middle :=
          Option.some.inj hmiddle
        rw [rtake_rtake (by decide)] at hmean
        rw [Bool.and_eq_true, hmean]
        exact ⟨fun hd => ⟨not_not.mp hframe, hd.1, hlong.mpr hge, hd.2⟩, fun hd => ⟨hd.2.1, hd.2.2.2⟩⟩

end BbMeanRevertV1

namespace DonchianTrend

theorem onOpenPositions_exactly {exitChannel : Nat} (hpos : 0 < exitChannel) (hlen : exitChannel < historyLen)
    {name : String} {pairs : List Pair} {events : List PriceEvent} {s : HistoryStrategy}
    (h : s.Saw timeframe historyLen name pairs events) (positions : List Position) (event : PriceEvent) :
    ExitsExactly name event .trailingChannel
      (ExitDue exitChannel (HistoryStrategy.taken timeframe pairs event.pair events) event) positions
      (onOpenPositions exitChannel s positions event) := by
  unfold onOpenPositions ExitDue
  split
  · rename_i hframe
    exact exitsExactly_nil (fun t ht => hframe ht.1) positions
  · rename_i hframe
    dsimp only
    rw [h.history_eq, h.name_eq, channelExcludingCurrentBar]
    generalize HistoryStrategy.taken timeframe pairs event.pair events = seen
    have hcandles : (channelCandles (seen.rtake historyLen) false).length = min seen.length historyLen - 1 := by
      rw [channelCandles, if_neg Bool.false_ne_true, List.length_dropLast, length_rtake]
    rcases donchianChannel_cases (seen.rtake historyLen) hpos false with
      ⟨hnone, hshort⟩ | ⟨lower, upper, hsome, hlong, hlower, hupper⟩
    · rw [hnone]
      exact exitsExactly_nil (fun t ht => by have := ht.2.2.1; omega) positions
    · rw [hsome]
      have hlt : exitChannel < seen.length := by omega
      have hwindow : (channelCandles (seen.rtake historyLen) false).rtake exitChannel =
          seen.dropLast.rtake exitChannel := by
        rw [channelCandles, if_neg Bool.false_ne_true, ← dropLast_rtake (by rw [length_rtake]; omega),
          rtake_rtake (by omega), dropLast_rtake hlt]
      rw [hwindow] at hlower hupper
      refine ⟨_, fun t => ?_, rfl⟩
      rw [Bool.and_eq_true, breaks_iff hlower hupper]
      exact ⟨fun hd => ⟨not_not.mp hframe, hd.1, hlt, hd.2⟩, fun hd => ⟨hd.2.1, hd.2.2.2⟩⟩

end DonchianTrend

namespace SqueezeMomentumV1

/-- A close is beyond the trailing stop when it is so far from one of the candles that the stop trails. -/
theorem breaks_chandelier_iff {t : Trade} {close highest lowest offset : Decimal} {window : List Candle}
    (hhigh : (highs window).max? = some highest) (hlow : (lows window).min? = some lowest) :
    t.breaks close (highest - offset) (lowest + offset) = true ↔
      ∃ c ∈ window, match t.direction with
        | .long => close < c.high - offset
        | .short => c.low + offset < close := by
  unfold Trade.breaks
  cases t.direction with
  | long =>
    rw [decide_eq_true_iff, lt_sub_iff_add_lt, Lib.lt_max?_iff hhigh]
    simp [highs, lt_sub_iff_add_lt]
  | short =>
    rw [decide_eq_true_iff, gt_iff_lt, ← lt_sub_iff_add_lt, Lib.min?_lt_iff hlow]
    simp [lows, lt_sub_iff_add_lt]

/-- When the strategy exits a position, as it tests one after another. -/
def chandelierDue (event : PriceEvent) (history : List Candle) (highestHigh lowestLow chandelierOffset : Decimal)
    (t : Trade) : Bool :=
  decide (delayBars ≤ barsHeld history t) && t.reachedOneRAt event.candle.close &&
    t.breaks event.candle.close (highestHigh - chandelierOffset) (lowestLow + chandelierOffset)

theorem exitSignalForPosition_eq (name : String) (pos : Position) (event : PriceEvent) (history : List Candle)
    (highestHigh lowestLow chandelierOffset : Decimal) :
    exitSignalForPosition pos event history highestHigh lowestLow chandelierOffset name =
      if pos.trade.strategyName = name ∧ pos.trade.pair = event.pair ∧
          chandelierDue event history highestHigh lowestLow chandelierOffset pos.trade then
        some { tradeId := pos.trade.id, reason := .trailingMa, closePrice := event.candle.close }
      else none := by
  unfold exitSignalForPosition chandelierDue
  dsimp only
  by_cases hname : pos.trade.strategyName = name
  · by_cases hpair : pos.trade.pair = event.pair
    · by_cases hheld : barsHeld history pos.trade < delayBars
      · simp [hname, hpair, hheld, not_le.mpr hheld]
      · cases pos.trade.reachedOneRAt event.candle.close <;>
          cases pos.trade.breaks event.candle.close (highestHigh - chandelierOffset) (lowestLow + chandelierOffset) <;>
          simp [hname, hpair, hheld, not_lt.mp hheld]
    · simp [hname, hpair]
  · simp [hname]

theorem filterMap_exitSignal (name : String) (positions : List Position) (event : PriceEvent) (history : List Candle)
    (highestHigh lowestLow chandelierOffset : Decimal) :
    (positions.filterMap fun pos =>
      exitSignalForPosition pos event history highestHigh lowestLow chandelierOffset name) =
    exitsWhere name event .trailingMa (chandelierDue event history highestHigh lowestLow chandelierOffset)
      positions := by
  unfold exitsWhere
  induction positions with
  | nil => rfl
  | cons pos positions ih =>
    rw [List.filterMap_cons, ih, List.filter_cons, exitSignalForPosition_eq]
    by_cases hdue : pos.trade.strategyName = name ∧ pos.trade.pair = event.pair ∧
        chandelierDue event history highestHigh lowestLow chandelierOffset pos.trade = true
    · rw [if_pos hdue, if_pos (decide_eq_true hdue)]
      rfl
    · rw [if_neg hdue, if_neg (by simpa using hdue)]

theorem onOpenPositions_exactly {name : String} {pairs : List Pair} {events : List PriceEvent} {s : SqueezeMomentumV1}
    (h : s.Saw timeframe historyLen name pairs events) (positions : List Position) (event : PriceEvent) :
    ExitsExactly name event .trailingMa (ExitDue (HistoryStrategy.taken timeframe pairs event.pair events) event)
      positions (onOpenPositions s positions event) := by
  unfold onOpenPositions exitCheckInputs ExitDue
  by_cases hframe : event.candle.timeframe ≠ timeframe
  · rw [if_pos hframe]
    exact exitsExactly_nil (fun t ht => hframe ht.1) positions
  · rw [if_neg hframe, h.history_eq, h.name_eq]
    generalize HistoryStrategy.taken timeframe pairs event.pair events = seen
    dsimp only
    cases hatr : Indicators.atr (highs (seen.rtake historyLen)) (lows (seen.rtake historyLen))
        (closes (seen.rtake historyLen)) atrPeriod with
    | none => exact exitsExactly_nil (fun t ht => by obtain ⟨atr, -, h, -⟩ := ht.2.2.2.2; cases h) positions
    | some atr =>
      dsimp only
      have hhighs : (highs (seen.rtake historyLen)).length = min seen.length historyLen :=
        (List.length_map ..).trans (length_rtake ..)
      have hlows : (lows (seen.rtake historyLen)).length = min seen.length historyLen :=
        (List.length_map ..).trans (length_rtake ..)
      have hcap : historyLen = 200 := rfl
      have hperiod : chandelierPeriod = 22 := rfl
      by_cases hflat : atr ≤ 0
      · rw [if_pos hflat]
        exact exitsExactly_nil (fun t ht => by
          obtain ⟨atr', hpos, h, -⟩ := ht.2.2.2.2
          obtain rfl := Option.some.inj h
          exact not_lt.mpr hflat hpos) positions
      · rw [if_neg hflat]
        by_cases hshort : (highs (seen.rtake historyLen)).length < chandelierPeriod ∨
            (lows (seen.rtake historyLen)).length < chandelierPeriod
        · rw [if_pos hshort]
          exact exitsExactly_nil (fun t ht => by have := ht.2.2.1; omega) positions
        · rw [if_neg hshort]
          have hlong : chandelierPeriod ≤ seen.length := by omega
          have hwindow : ∀ f : Candle → Decimal, ((seen.rtake historyLen).map f).drop
              (((seen.rtake historyLen).map f).length - chandelierPeriod) = (seen.rtake chandelierPeriod).map f := by
            intro f
            rw [← rtake_rtake (show chandelierPeriod ≤ historyLen by decide) seen, map_rtake f _ chandelierPeriod]
            rfl
          have hne : seen.rtake chandelierPeriod ≠ [] := by
            apply List.ne_nil_of_length_pos
            rw [length_rtake]
            omega
          obtain ⟨highest, hhighest⟩ := Option.ne_none_iff_exists'.mp
            (mt List.max?_eq_none_iff.mp (mt List.map_eq_nil_iff.mp hne : highs _ ≠ []))
          obtain ⟨lowest, hlowest⟩ := Option.ne_none_iff_exists'.mp
            (mt List.min?_eq_none_iff.mp (mt List.map_eq_nil_iff.mp hne : lows _ ≠ []))
          have hhigh : (highs (seen.rtake historyLen)).drop
              ((highs (seen.rtake historyLen)).length - chandelierPeriod) = highs (seen.rtake chandelierPeriod) :=
            hwindow Candle.high
          have hlow : (lows (seen.rtake historyLen)).drop
              ((lows (seen.rtake historyLen)).length - chandelierPeriod) = lows (seen.rtake chandelierPeriod) :=
            hwindow Candle.low
          rw [hhigh, hlow, hhighest, hlowest]
          dsimp only [Option.getD_some]
          rw [filterMap_exitSignal]
          refine ⟨_, fun t => ?_, rfl⟩
          have hdelay : delayBars = 3 := rfl
          rw [chandelierDue, Bool.and_eq_true, Bool.and_eq_true, decide_eq_true_iff,
            breaks_chandelier_iff hhighest hlowest, barsHeld]
          constructor
          · rintro ⟨⟨hheld, hreached⟩, hbreaks⟩
            exact ⟨not_not.mp hframe, hreached, hlong, by simp only [ge_iff_le] at hheld; omega, atr, not_le.mp hflat,
              rfl, hbreaks⟩
          · rintro ⟨-, hreached, -, hheld, atr', -, hatr', hbreaks⟩
            obtain rfl := Option.some.inj hatr'
            exact ⟨⟨by simp only [ge_iff_le]; omega, hreached⟩, hbreaks⟩

end SqueezeMomentumV1

namespace FxNewV1

/-! ### The M15 candles of a pair -/

/-- The pending candles that are kept for an event. -/
def currentOf (pending : List Candle) (event : PriceEvent) : List Candle :=
  match pending.head? with
  | none => pending
  | some c => if bucketOf c.timestamp ≠ bucketOf event.candle.timestamp then [] else pending

theorem currentPending_eq (s : FxNewV1) (event : PriceEvent) :
    s.currentPending event = currentOf (s.m5Pending event.pair) event := rfl

/-- What the aggregation answers, and what is pending after it, by what was pending for the pair before. -/
def aggregateOf (pending : List Candle) (event : PriceEvent) : Option Candle × List Candle :=
  let pending := currentOf pending event
  if pending.any fun c => c.timestamp = event.candle.timestamp then (none, pending)
  else
    let pending := (pending ++ [event.candle]).insertionSort fun a b => a.timestamp ≤ b.timestamp
    if pending.length ≠ 3 then (none, pending) else (mergeM15 pending (bucketOf event.candle.timestamp), [])

theorem aggregateM15_eq (s : FxNewV1) (event : PriceEvent) :
    s.aggregateM15 event = ((aggregateOf (s.m5Pending event.pair) event).1,
      s.setPending event.pair (aggregateOf (s.m5Pending event.pair) event).2) := by
  unfold aggregateM15 aggregateOf
  rw [currentPending_eq]
  generalize currentOf (s.m5Pending event.pair) event = pending
  dsimp only
  split
  · rfl
  · split <;> rfl

/-- The strategy has been shown some events: what it has of a pair is what the aggregation makes of the events of that
pair alone. -/
structure Saw (name : String) (pairs : List Pair) (events : List PriceEvent) (s : FxNewV1) : Prop where
  name_eq : s.name = name
  pairs_eq : s.pairs = pairs
  m15_eq : ∀ p, s.m15 p = (madeM15 pairs p events).rtake historyLen
  pending_eq : ∀ p, s.m5Pending p = (aggregator.after (new "" pairs) (m5Of pairs p events)).m5Pending p

variable {name : String} {pairs : List Pair} {events : List PriceEvent} {s : FxNewV1}

theorem saw_new (name : String) (pairs : List Pair) : Saw name pairs [] (new name pairs) :=
  ⟨rfl, rfl, fun _ => (List.rtake_nil historyLen).symm, fun _ => rfl⟩

theorem Saw.accepts_iff (h : Saw name pairs events s) (event : PriceEvent) :
    s.Accepts event ↔ event.exchange = fxNewExchange ∧ event.pair ∈ pairs := by
  unfold Accepts
  rw [h.pairs_eq]

theorem m5Of_concat (pairs : List Pair) (pair : Pair) (events : List PriceEvent) (event : PriceEvent) :
    m5Of pairs pair (events ++ [event]) =
      if takesM5 pairs event ∧ event.pair = pair then m5Of pairs pair events ++ [event]
      else m5Of pairs pair events := by
  unfold m5Of
  rw [List.filter_append]
  split
  · rename_i h
    rw [List.filter_cons_of_pos (by simpa using h), List.filter_nil]
  · rename_i h
    rw [List.filter_cons_of_neg (by simpa using h), List.filter_nil, List.append_nil]

/-- An event that does not go into the aggregation leaves the M15 candles. -/
theorem Saw.skip (h : Saw name pairs events s) {event : PriceEvent} (hskip : ¬takesM5 pairs event) {s' : FxNewV1}
    (hname : s'.name = s.name) (hpairs : s'.pairs = s.pairs) (hm15 : s'.m15 = s.m15)
    (hpending : s'.m5Pending = s.m5Pending) : Saw name pairs (events ++ [event]) s' := by
  refine ⟨hname.trans h.name_eq, hpairs.trans h.pairs_eq, fun p => ?_, fun p => ?_⟩
  · rw [hm15, h.m15_eq, madeM15, madeM15, m5Of_concat, if_neg fun h' => hskip h'.1]
  · rw [hpending, h.pending_eq, m5Of_concat, if_neg fun h' => hskip h'.1]

/-- The answer of the aggregation to a candle that goes into it, and the candles pending after it. -/
theorem Saw.aggregate (h : Saw name pairs events s) {event : PriceEvent} (htakes : takesM5 pairs event) :
    madeM15 pairs event.pair (events ++ [event]) = madeM15 pairs event.pair events ++
        (((s.aggregateM15 event).1.filter fun c => IsValidCandle c).toList) ∧
      ∀ p, (s.aggregateM15 event).2.m5Pending p =
        (aggregator.after (new "" pairs) (m5Of pairs p (events ++ [event]))).m5Pending p := by
  have hpending := h.pending_eq event.pair
  refine ⟨?_, fun p => ?_⟩
  · rw [madeM15, m5Of_concat, if_pos ⟨htakes, rfl⟩, Lib.Machine.outputs_append, List.filterMap_append,
      List.filter_append]
    congr 1
    show List.filter _ (List.filterMap id [((aggregator.after _ _).aggregateM15 event).1]) = _
    rw [aggregateM15_eq, aggregateM15_eq s, hpending]
    dsimp only
    cases (aggregateOf ((aggregator.after (new "" pairs) (m5Of pairs event.pair events)).m5Pending event.pair) event).1
        with
    | none => rfl
    | some c => by_cases hc : IsValidCandle c <;> simp [hc, Option.filter]
  · rw [m5Of_concat, aggregateM15_eq]
    by_cases hp : event.pair = p
    · rw [if_pos ⟨htakes, hp⟩, Lib.Machine.after_concat, ← hp]
      show _ = ((aggregator.after _ _).aggregateM15 event).2.m5Pending event.pair
      rw [aggregateM15_eq, m5Pending_setPending, m5Pending_setPending, hpending]
    · rw [if_neg fun h' => hp h'.2, ← h.pending_eq p]
      exact Function.update_of_ne (Ne.symm hp) ..

theorem madeM15_other {pair : Pair} {event : PriceEvent} (h : event.pair ≠ pair) :
    madeM15 pairs pair (events ++ [event]) = madeM15 pairs pair events := by
  rw [madeM15, madeM15, m5Of_concat, if_neg fun h' => h h'.2]

theorem Saw.onPrice (h : Saw name pairs events s) (event : PriceEvent) :
    Saw name pairs (events ++ [event]) (s.onPrice event).2 := by
  have haccepts := h.accepts_iff event
  unfold FxNewV1.onPrice
  by_cases hacc : s.Accepts event
  swap
  · rw [if_pos hacc]
    exact h.skip (fun ht => hacc (haccepts.mpr ⟨ht.1, ht.2.1⟩)) rfl rfl rfl rfl
  rw [if_neg (not_not.mpr hacc)]
  by_cases hh1 : event.candle.timeframe = "H1"
  · rw [if_pos hh1]
    have hskip : ¬takesM5 pairs event := fun ht => absurd (hh1.symm.trans ht.2.2.1) (by decide)
    by_cases hvalid : IsValidCandle event.candle
    · refine h.skip hskip ?_ ?_ ?_ ?_ <;> simp [pushH1, hvalid]
    · refine h.skip hskip ?_ ?_ ?_ ?_ <;> simp [pushH1, hvalid]
  rw [if_neg hh1]
  by_cases hm5 : event.candle.timeframe = "M5"
  swap
  · rw [if_pos hm5]
    exact h.skip (fun ht => hm5 ht.2.2.1) rfl rfl rfl rfl
  rw [if_neg (not_not.mpr hm5)]
  by_cases hvalid : IsValidCandle event.candle
  swap
  · rw [if_pos hvalid]
    exact h.skip (fun ht => hvalid ht.2.2.2) rfl rfl rfl rfl
  rw [if_neg (not_not.mpr hvalid)]
  have htakes : takesM5 pairs event :=
    ⟨(haccepts.mp hacc).1, (haccepts.mp hacc).2, hm5, hvalid⟩
  obtain ⟨hmade, hpending⟩ := h.aggregate htakes
  have hm15 : (s.aggregateM15 event).2.m15 = s.m15 := by
    rw [aggregateM15_eq]
    rfl
  have hname : (s.aggregateM15 event).2.name = s.name := by
    rw [aggregateM15_eq]
    rfl
  have hpairs : (s.aggregateM15 event).2.pairs = s.pairs := by
    rw [aggregateM15_eq]
    rfl
  rcases hanswer : s.aggregateM15 event with ⟨_ | candle, next⟩ <;>
    rw [hanswer] at hmade hpending hm15 hname hpairs <;> dsimp only at *
  · refine ⟨hname.trans h.name_eq, hpairs.trans h.pairs_eq, fun p => ?_, hpending⟩
    rw [hm15, h.m15_eq]
    by_cases hp : event.pair = p
    · rw [← hp, hmade, Option.filter_none, Option.toList_none, List.append_nil]
    · rw [madeM15_other hp]
  · by_cases hcandle : IsValidCandle candle
    · rw [if_neg (not_not.mpr hcandle)]
      refine ⟨hname.trans h.name_eq, hpairs.trans h.pairs_eq, fun p => ?_, hpending⟩
      show Function.update next.m15 event.pair _ p = _
      by_cases hp : event.pair = p
      · rw [← hp, Function.update_self, hm15, h.m15_eq, hmade,
          Option.filter_some_pos (by simpa using hcandle), Option.toList_some]
        exact rtake_concat ..
      · rw [Function.update_of_ne (Ne.symm hp), hm15, h.m15_eq, madeM15_other hp]
    · rw [if_pos hcandle]
      refine ⟨hname.trans h.name_eq, hpairs.trans h.pairs_eq, fun p => ?_, hpending⟩
      rw [hm15, h.m15_eq]
      by_cases hp : event.pair = p
      · rw [← hp, hmade, Option.filter_some_neg (by simpa using hcandle), Option.toList_none, List.append_nil]
      · rw [madeM15_other hp]

theorem reachedOneR_iff (t : Trade) (history : List Candle) (current : Candle) :
    reachedOneR ⟨t⟩ history current = true ↔ StopOnCorrectSide t.direction t.entryPrice t.stopLoss ∧
      ∃ c, (c ∈ history ∧ t.entryAt < m15End c ∨ c = current) ∧
        c.touches t.direction (t.entryPrice + (t.entryPrice - t.stopLoss)) := by
  unfold reachedOneR StopOnCorrectSide Candle.touches
  dsimp only
  cases t.direction with
  | long =>
    dsimp only
    by_cases hside : t.entryPrice - t.stopLoss ≤ 0
    · rw [if_pos hside]
      exact iff_of_false Bool.false_ne_true fun h => not_lt.mpr (sub_nonpos.mp hside) h.1
    · rw [if_neg hside]
      have hlt : t.stopLoss < t.entryPrice := sub_pos.mp (not_le.mp hside)
      simp [List.any_append, hlt, or_and_right, exists_or, and_assoc]
  | short =>
    dsimp only
    by_cases hside : t.stopLoss - t.entryPrice ≤ 0
    · rw [if_pos hside]
      exact iff_of_false Bool.false_ne_true fun h => not_lt.mpr (sub_nonpos.mp hside) h.1
    · rw [if_neg hside]
      have hlt : t.entryPrice < t.stopLoss := sub_pos.mp (not_le.mp hside)
      have htarget : t.entryPrice - (t.stopLoss - t.entryPrice) = t.entryPrice + (t.entryPrice - t.stopLoss) := by
        rw [sub_sub_eq_add_sub, add_sub_assoc]
      rw [htarget]
      simp [List.any_append, hlt, or_and_right, exists_or, and_assoc]

theorem onOpenPositions_exactly (h : Saw name pairs events s) (positions : List Position) (event : PriceEvent) :
    ExitsExactly name event .trailingChannel (ExitDue pairs (madeM15 pairs event.pair events) event) positions
      (onOpenPositions s positions event) := by
  unfold onOpenPositions ExitDue
  dsimp only
  by_cases hout : event.candle.timeframe ≠ "M5" ∨ ¬s.Accepts event
  · rw [if_pos hout]
    exact exitsExactly_nil (fun t ht => hout.elim (fun hm5 => hm5 ht.1.2.2.1)
      fun hacc => hacc ((h.accepts_iff event).mpr ⟨ht.1.1, ht.1.2.1⟩)) positions
  rw [if_neg hout]
  by_cases hvalid : IsValidCandle event.candle
  swap
  · rw [if_pos hvalid]
    exact exitsExactly_nil (fun t ht => hvalid ht.1.2.2.2) positions
  rw [not_or, not_not, not_not, h.accepts_iff] at hout
  have htakes : takesM5 pairs event := ⟨hout.2.1, hout.2.2, hout.1, hvalid⟩
  rw [if_neg (not_not.mpr hvalid), h.m15_eq, h.name_eq]
  generalize (madeM15 pairs event.pair events).rtake historyLen = kept
  generalize hclosed : kept.filter (fun c => decide (m15End c ≤ event.candle.timestamp)) = closed
  rcases donchianChannel_cases closed (show 0 < exitChannel by decide) true with
    ⟨hnone, hshort⟩ | ⟨lower, upper, hsome, hlong, hlower, hupper⟩
  · rw [hnone]
    exact exitsExactly_nil (fun t ht => absurd hshort (not_lt.mpr ht.2.1)) positions
  · rw [hsome]
    refine ⟨_, fun t => ?_, rfl⟩
    rw [Bool.and_eq_true, reachedOneR_iff, breaks_iff hlower hupper]
    exact ⟨fun hd => ⟨htakes, hlong, hd.1.1, hd.1.2, hd.2⟩, fun hd => ⟨⟨hd.2.2.1, hd.2.2.2.1⟩, hd.2.2.2.2⟩⟩

end FxNewV1

end AutoTrader
