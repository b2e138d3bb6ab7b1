import AutoTrader.Strategy.FxNew
import AutoTrader.Strategy.Rules
import Mathlib.Data.List.DropRight
import Mathlib.Data.List.ReduceOption

/-!
# Warm-up and live history

A strategy that is shown a list of events before it goes live should answer the events after them as a
strategy that was live from the start. Four of the rule strategies do. `SqueezeMomentumV1` counts the bars
of a squeeze from the 24th candle of a pair when it is live, and from the first candle that it can judge
when it is warmed up, so the two disagree about a squeeze that began before the 24th candle;
`warmup_equals_live_iff` says exactly when that shows.
-/

namespace AutoTrader

/-! ## The rule strategies as one kind of thing -/

/-- The strategies without a language model. -/
inductive RuleStrategy where
  | bbMeanRevertV1
  | donchianTrendV1
  | donchianTrendEvolveV1 (params : EvolveParams)
  | squeezeMomentumV1
  | fxNewV1

namespace RuleStrategy

variable (stdDev : Decimal → Option Decimal) (name : String) (pairs : List Pair)

/-- The answers to `later` of a fresh strategy that was shown `earlier`. -/
def afterWarmup (earlier later : List PriceEvent) : RuleStrategy → List TickOutcome
  | bbMeanRevertV1 =>
    let m := BbMeanRevertV1.strategy stdDev
    m.outputs (m.warmed (.new name pairs) earlier) later
  | donchianTrendV1 =>
    let m := DonchianTrendV1.strategy
    m.outputs (m.warmed (.new name pairs) earlier) later
  | donchianTrendEvolveV1 params =>
    let m := DonchianTrendEvolveV1.strategy
    m.outputs (m.warmed (.new name pairs params) earlier) later
  | squeezeMomentumV1 =>
    let m := SqueezeMomentumV1.strategy stdDev
    m.outputs (m.warmed (.new name pairs) earlier) later
  | fxNewV1 =>
    let m := FxNewV1.strategy
    m.outputs (m.warmed (.new name pairs) earlier) later

/-- The answers of a fresh strategy to a list of events. -/
def live (events : List PriceEvent) : RuleStrategy → List TickOutcome
  | bbMeanRevertV1 => (BbMeanRevertV1.strategy stdDev).outputs (.new name pairs) events
  | donchianTrendV1 => DonchianTrendV1.strategy.outputs (.new name pairs) events
  | donchianTrendEvolveV1 params => DonchianTrendEvolveV1.strategy.outputs (.new name pairs params) events
  | squeezeMomentumV1 => (SqueezeMomentumV1.strategy stdDev).outputs (.new name pairs) events
  | fxNewV1 => FxNewV1.strategy.outputs (.new name pairs) events

end RuleStrategy

namespace SqueezeMomentumV1

variable (stdDev : Decimal → Option Decimal)

/-! ## The bars of a pair -/

/-- The candles of a pair that the strategy takes, oldest first. -/
def candlesOf (pairs : List Pair) (pair : Pair) (events : List PriceEvent) : List Candle :=
  (events.filter fun e => e.candle.timeframe = timeframe ∧ e.pair ∈ pairs ∧ e.pair = pair).map PriceEvent.candle

/-- What the history holds of a list of candles. -/
def recent (candles : List Candle) : List Candle := candles.drop (candles.length - historyLen)

/-- Of each candle, whether it is in a squeeze, where that can be told. -/
def squeezeFlags (candles : List Candle) : List (Option Bool) :=
  (List.range candles.length).map fun k => isInSqueeze stdDev (recent (candles.take (k + 1)))

/-- How many of the candles at the end are in a squeeze, those aside of which it cannot be told. -/
def squeezeRun (flags : List (Option Bool)) : Nat := (flags.reduceOption.rtakeWhile id).length

/-- The candle of the event comes after at least 23 others, is not in a squeeze, and meets the conditions
of an entry. -/
def BreaksOut (name : String) (seen : List Candle) (event : PriceEvent) : Prop :=
  needed + 1 ≤ seen.length ∧ isInSqueeze stdDev (recent (seen ++ [event.candle])) = some false ∧
    (breakout name (recent (seen ++ [event.candle])) event).run ≠ .ok none

/-- Every breakout among the later events ends a squeeze that is three bars long when its bars are counted
from the 24th candle of the pair on, or is shorter even when they are counted from the first one. Only the
earlier events' candles count among the first 23. -/
def CountedAlike (name : String) (pairs : List Pair) (earlier later : List PriceEvent) : Prop :=
  ∀ i, ∀ hi : i < later.length, later[i].candle.timeframe = timeframe → later[i].pair ∈ pairs →
    BreaksOut stdDev name (candlesOf pairs later[i].pair (earlier ++ later.take i)) later[i] →
      let flags := squeezeFlags stdDev (candlesOf pairs later[i].pair (earlier ++ later.take i))
      let warmed := (candlesOf pairs later[i].pair earlier).length
      squeezeBars ≤ squeezeRun (flags.drop (needed + 1)) ∨
        squeezeRun (flags.take (min warmed (needed + 1)) ++ flags.drop (needed + 1)) < squeezeBars

/-! ## Runs of squeeze bars -/

@[simp] theorem squeezeRun_concat_none (flags : List (Option Bool)) :
    squeezeRun (flags ++ [none]) = squeezeRun flags := by
  simp [squeezeRun, List.reduceOption_append]

@[simp] theorem squeezeRun_concat_some (flags : List (Option Bool)) (inSqueeze : Bool) :
    squeezeRun (flags ++ [some inSqueeze]) = countBar (squeezeRun flags) inSqueeze := by
  have hr : (flags ++ [some inSqueeze]).reduceOption = flags.reduceOption ++ [inSqueeze] := by
    simp [List.reduceOption_append]
  unfold squeezeRun countBar
  rw [hr]
  cases inSqueeze with
  | false => rw [List.rtakeWhile_concat_neg _ _ _ (by simp)]; rfl
  | true => rw [List.rtakeWhile_concat_pos _ _ _ (by simp)]; simp

/-- Bars in front make a run longer at most. -/
theorem squeezeRun_le_append (front flags : List (Option Bool)) :
    squeezeRun flags ≤ squeezeRun (front ++ flags) := by
  induction flags using List.reverseRecOn with
  | nil => simp [squeezeRun]
  | append_singleton flags flag ih =>
    rw [← List.append_assoc]
    rcases flag with _ | inSqueeze
    · rw [squeezeRun_concat_none, squeezeRun_concat_none]
      exact ih
    · rw [squeezeRun_concat_some, squeezeRun_concat_some]
      unfold countBar
      split <;> omega

theorem squeezeFlags_concat (candles : List Candle) (candle : Candle) :
    squeezeFlags stdDev (candles ++ [candle]) =
      squeezeFlags stdDev candles ++ [isInSqueeze stdDev (recent (candles ++ [candle]))] := by
  have hold : (List.range candles.length).map (fun k =>
      isInSqueeze stdDev (recent ((candles ++ [candle]).take (k + 1)))) = squeezeFlags stdDev candles := by
    refine List.map_congr_left fun k hk => ?_
    have hk : k < candles.length := List.mem_range.mp hk
    rw [List.take_append_of_le_length (by omega)]
  have hnew : (candles ++ [candle]).take (candles.length + 1) = candles ++ [candle] :=
    List.take_of_length_le (by simp)
  unfold squeezeFlags at hold ⊢
  rw [List.length_append, List.length_singleton, List.range_succ, List.map_append, hold, List.map_singleton, hnew]

@[simp] theorem length_squeezeFlags (candles : List Candle) :
    (squeezeFlags stdDev candles).length = candles.length := by
  simp [squeezeFlags]

/-- The flags that make up the count: of the first 23 those of warmed-up candles, and of the others all. -/
def counted (warmed : Nat) (flags : List (Option Bool)) : List (Option Bool) :=
  flags.take (min warmed (needed + 1)) ++ flags.drop (needed + 1)

theorem counted_concat {warmed : Nat} {flags : List (Option Bool)} (hw : warmed ≤ flags.length)
    (flag : Option Bool) :
    counted warmed (flags ++ [flag]) =
      if needed + 1 ≤ flags.length then counted warmed flags ++ [flag] else counted warmed flags := by
  unfold counted
  have htake : (flags ++ [flag]).take (min warmed (needed + 1)) = flags.take (min warmed (needed + 1)) :=
    List.take_append_of_le_length (by omega)
  rw [htake]
  split
  · rename_i h
    rw [List.drop_append_of_le_length h, List.append_assoc]
  · rename_i h
    rw [List.drop_of_length_le (by simp; omega), List.drop_of_length_le (by omega)]

/-! ## What the state holds -/

theorem pushCandle_recent (candles : List Candle) (candle : Candle) :
    pushCandle (recent candles) candle historyLen = recent (candles ++ [candle]) := by
  have h : (recent candles ++ [candle]) = (candles ++ [candle]).drop (candles.length - historyLen) := by
    rw [List.drop_append_of_le_length (by omega)]
    rfl
  have hlen : candles.length - historyLen +
      (((candles ++ [candle]).drop (candles.length - historyLen)).length - historyLen) =
        (candles ++ [candle]).length - historyLen := by
    simp only [List.length_drop, List.length_append, List.length_singleton]
    omega
  unfold pushCandle
  rw [h, List.drop_drop, hlen]
  rfl

theorem length_recent (candles : List Candle) : (recent candles).length = min candles.length historyLen := by
  simp only [recent, List.length_drop]
  omega

theorem candlesOf_concat (pairs : List Pair) (pair : Pair) (events : List PriceEvent) (event : PriceEvent) :
    candlesOf pairs pair (events ++ [event]) =
      if event.candle.timeframe = timeframe ∧ event.pair ∈ pairs ∧ event.pair = pair then
        candlesOf pairs pair events ++ [event.candle]
      else candlesOf pairs pair events := by
  unfold candlesOf
  rw [List.filter_append, List.map_append]
  split
  · rename_i h
    rw [List.filter_cons_of_pos (by simpa using h)]
    simp
  · rename_i h
    rw [List.filter_cons_of_neg (by simpa using h)]
    simp

theorem candlesOf_append (pairs : List Pair) (pair : Pair) (events more : List PriceEvent) :
    candlesOf pairs pair (events ++ more) = candlesOf pairs pair events ++ candlesOf pairs pair more := by
  simp [candlesOf]

/-- The state after some events. The count of a pair is of those flags of its candles that `counts` picks. -/
structure Holds (name : String) (pairs : List Pair) (counts : Pair → List (Option Bool) → List (Option Bool))
    (events : List PriceEvent) (s : SqueezeMomentumV1) : Prop where
  name_eq : s.name = name
  pairs_eq : s.pairs = pairs
  history_eq : ∀ p, s.history p = recent (candlesOf pairs p events)
  count_eq : ∀ p, s.squeezeCount p = squeezeRun (counts p (squeezeFlags stdDev (candlesOf pairs p events)))

variable {stdDev} {name : String} {pairs : List Pair} {counts : Pair → List (Option Bool) → List (Option Bool)}
  {events : List PriceEvent} {s : SqueezeMomentumV1}

theorem Holds.takes_iff (h : Holds stdDev name pairs counts events s) (event : PriceEvent) :
    s.Takes timeframe event ↔ event.candle.timeframe = timeframe ∧ event.pair ∈ pairs := by
  unfold HistoryStrategy.Takes
  rw [h.pairs_eq]

/-- The history that the strategy judges an event by. -/
theorem Holds.push_history (h : Holds stdDev name pairs counts events s) (event : PriceEvent) :
    (s.push event.pair event.candle).history event.pair =
      recent (candlesOf pairs event.pair events ++ [event.candle]) := by
  show Function.update s.history event.pair _ event.pair = _
  rw [Function.update_self, h.history_eq, pushCandle_recent]

/-- The history is long enough from the 24th candle on. -/
theorem length_recent_concat_lt (seen : List Candle) (candle : Candle) :
    (recent (seen ++ [candle])).length < needed + 2 ↔ ¬ needed + 1 ≤ seen.length := by
  rw [length_recent, List.length_append, List.length_singleton]
  have hn : needed = 22 := by decide
  have hl : historyLen = 200 := rfl
  omega

theorem Holds.answer (h : Holds stdDev name pairs counts events s) (event : PriceEvent) :
    (onPrice stdDev event s).1 =
      if (event.candle.timeframe = timeframe ∧ event.pair ∈ pairs) ∧
          needed + 1 ≤ (candlesOf pairs event.pair events).length ∧
          isInSqueeze stdDev (recent (candlesOf pairs event.pair events ++ [event.candle])) = some false ∧
          squeezeBars ≤ squeezeRun (counts event.pair
            (squeezeFlags stdDev (candlesOf pairs event.pair events))) then
        (breakout name (recent (candlesOf pairs event.pair events ++ [event.candle])) event).run
      else .ok none := by
  have hname := h.name_eq
  unfold onPrice
  by_cases htakes : s.Takes timeframe event
  · have htaken : event.candle.timeframe = timeframe ∧ event.pair ∈ pairs := (h.takes_iff event).mp htakes
    have hcount : (s.push event.pair event.candle).squeezeCount event.pair = _ := h.count_eq event.pair
    simp only [htakes, ↓reduceIte, h.push_history, length_recent_concat_lt]
    by_cases hlen : needed + 1 ≤ (candlesOf pairs event.pair events).length
    · rcases hflag : isInSqueeze stdDev (recent (candlesOf pairs event.pair events ++ [event.candle])) with
        _ | _ | _
      · simp [hlen]
      · have hn : (s.push event.pair event.candle).name = name := hname
        by_cases hrun : squeezeBars ≤ squeezeRun (counts event.pair
            (squeezeFlags stdDev (candlesOf pairs event.pair events)))
        · simp [hlen, hcount, hrun, htaken, recordSqueezeBar, hn]
        · simp [hlen, hcount, hrun]
      · simp [hlen]
    · simp [hlen]
  · have htaken := (h.takes_iff event).not.mp htakes
    simp [htakes, htaken]

/-- The count of a pair with the flag of one candle more. -/
def recordFlag (s : SqueezeMomentumV1) (pair : Pair) : Option Bool → SqueezeMomentumV1
  | none => s
  | some inSqueeze => s.recordSqueezeBar pair inSqueeze

theorem warmup_eq (event : PriceEvent) (s : SqueezeMomentumV1) :
    warmup stdDev event s =
      if s.Takes timeframe event then
        (s.push event.pair event.candle).recordFlag event.pair
          (isInSqueeze stdDev ((s.push event.pair event.candle).history event.pair))
      else s := by
  unfold warmup
  split
  · dsimp only
    rcases isInSqueeze stdDev ((s.push event.pair event.candle).history event.pair) with _ | _ <;> rfl
  · rfl

theorem onPrice_state (event : PriceEvent) (s : SqueezeMomentumV1) :
    (onPrice stdDev event s).2 =
      if s.Takes timeframe event then
        if ((s.push event.pair event.candle).history event.pair).length < needed + 2 then
          s.push event.pair event.candle
        else (s.push event.pair event.candle).recordFlag event.pair
          (isInSqueeze stdDev ((s.push event.pair event.candle).history event.pair))
      else s := by
  unfold onPrice
  split
  · dsimp only
    split
    · rfl
    · rcases isInSqueeze stdDev ((s.push event.pair event.candle).history event.pair) with _ | _
      · rfl
      · dsimp only
        split <;> rfl
  · rfl

/-- An event that is not taken leaves the candles of every pair as they are. -/
theorem Holds.skip (h : Holds stdDev name pairs counts events s) {event : PriceEvent}
    (hskip : ¬ (event.candle.timeframe = timeframe ∧ event.pair ∈ pairs)) :
    Holds stdDev name pairs counts (events ++ [event]) s := by
  have hc : ∀ p, candlesOf pairs p (events ++ [event]) = candlesOf pairs p events := by
    intro p
    rw [candlesOf_concat, if_neg fun ht => hskip ⟨ht.1, ht.2.1⟩]
  exact ⟨h.name_eq, h.pairs_eq, fun p => by rw [hc]; exact h.history_eq p, fun p => by rw [hc]; exact h.count_eq p⟩

/-- An event that is taken adds its candle to its pair, and its flag to the count where it is picked. -/
theorem Holds.take (h : Holds stdDev name pairs counts events s) {event : PriceEvent}
    (htaken : event.candle.timeframe = timeframe ∧ event.pair ∈ pairs) (records : Prop) [Decidable records]
    (hcounts : ∀ flag, counts event.pair (squeezeFlags stdDev (candlesOf pairs event.pair events) ++ [flag]) =
      if records then counts event.pair (squeezeFlags stdDev (candlesOf pairs event.pair events)) ++ [flag]
      else counts event.pair (squeezeFlags stdDev (candlesOf pairs event.pair events))) :
    Holds stdDev name pairs counts (events ++ [event])
      (if records then (s.push event.pair event.candle).recordFlag event.pair
          (isInSqueeze stdDev ((s.push event.pair event.candle).history event.pair))
        else s.push event.pair event.candle) := by
  have hself : candlesOf pairs event.pair (events ++ [event]) =
      candlesOf pairs event.pair events ++ [event.candle] := by
    rw [candlesOf_concat, if_pos ⟨htaken.1, htaken.2, rfl⟩]
  have hother : ∀ p, p ≠ event.pair → candlesOf pairs p (events ++ [event]) = candlesOf pairs p events := by
    intro p hp
    rw [candlesOf_concat, if_neg fun ht => hp ht.2.2.symm]
  have hhistory : ∀ p, (s.push event.pair event.candle).history p = recent (candlesOf pairs p (events ++ [event])) := by
    intro p
    by_cases hp : p = event.pair
    · subst hp
      rw [h.push_history, hself]
    · rw [hother p hp, ← h.history_eq p]
      exact Function.update_of_ne hp _ _
  have hcount : ∀ p, (s.push event.pair event.candle).squeezeCount p =
      squeezeRun (counts p (squeezeFlags stdDev (candlesOf pairs p events))) := h.count_eq
  rw [h.push_history]
  rcases hflag : isInSqueeze stdDev (recent (candlesOf pairs event.pair events ++ [event.candle])) with
    _ | inSqueeze
  all_goals
    have hnew := hcounts (isInSqueeze stdDev (recent (candlesOf pairs event.pair events ++ [event.candle])))
    rw [← squeezeFlags_concat, hflag] at hnew
    refine ⟨by split <;> exact h.name_eq, by split <;> exact h.pairs_eq, by split <;> exact hhistory, fun p => ?_⟩
    by_cases hp : p = event.pair
    · subst hp
      rw [hself, hnew]
      split
      · simp [recordFlag, recordSqueezeBar, hcount]
      · exact hcount _
    · rw [hother p hp, ← hcount p]
      split
      · simp [recordFlag, recordSqueezeBar, hp]
      · rfl

/-! ## Warm-up and live runs -/

theorem holds_new (name : String) (pairs : List Pair) (counts : Pair → List (Option Bool) → List (Option Bool))
    (hcounts : ∀ p, counts p [] = []) : Holds stdDev name pairs counts [] (new name pairs) where
  name_eq := rfl
  pairs_eq := rfl
  history_eq p := by simp [new, HistoryStrategy.new, candlesOf, recent]
  count_eq p := by
    show 0 = squeezeRun (counts p [])
    rw [hcounts]
    rfl

/-- Warm-up counts every flag. -/
theorem holds_warmed (name : String) (pairs : List Pair) (events : List PriceEvent) :
    Holds stdDev name pairs (fun _ flags => flags) events
      ((strategy stdDev).warmed (new name pairs) events) := by
  induction events using List.reverseRecOn with
  | nil => exact holds_new name pairs _ fun _ => rfl
  | append_singleton events event ih =>
    rw [Lib.Machine.warmed_concat]
    show Holds stdDev name pairs _ _ (warmup stdDev event _)
    rw [warmup_eq]
    by_cases htakes : ((strategy stdDev).warmed (new name pairs) events).Takes timeframe event
    · rw [if_pos htakes]
      have h := ih.take ((ih.takes_iff event).mp htakes) True fun _ => rfl
      rwa [if_pos trivial] at h
    · rw [if_neg htakes]
      exact ih.skip ((ih.takes_iff event).not.mp htakes)

/-- A live run counts the flags from the 24th candle on, and what was counted before of those at hand. -/
theorem Holds.after {s : SqueezeMomentumV1} {warmed : Pair → Nat} {earlier : List PriceEvent}
    (h : Holds stdDev name pairs (fun p => counted (warmed p)) earlier s)
    (hw : ∀ p, warmed p ≤ (candlesOf pairs p earlier).length) (later : List PriceEvent) :
    Holds stdDev name pairs (fun p => counted (warmed p)) (earlier ++ later) ((strategy stdDev).after s later) := by
  induction later using List.reverseRecOn with
  | nil => simpa using h
  | append_singleton later event ih =>
    rw [Lib.Machine.after_concat, ← List.append_assoc]
    show Holds stdDev name pairs _ _ (onPrice stdDev event _).2
    rw [onPrice_state]
    by_cases htakes : ((strategy stdDev).after s later).Takes timeframe event
    · rw [if_pos htakes]
      have hlen : warmed event.pair ≤ (squeezeFlags stdDev (candlesOf pairs event.pair (earlier ++ later))).length := by
        have := hw event.pair
        rw [length_squeezeFlags, candlesOf_append, List.length_append]
        omega
      have h := ih.take ((ih.takes_iff event).mp htakes) _ fun flag => counted_concat hlen flag
      rw [length_squeezeFlags] at h
      rw [ih.push_history] at h ⊢
      simp only [length_recent_concat_lt, ite_not]
      exact h
    · rw [if_neg htakes]
      exact ih.skip ((ih.takes_iff event).not.mp htakes)

theorem counted_length {n : Nat} {flags : List (Option Bool)} (h : flags.length = n) : counted n flags = flags := by
  unfold counted
  rcases Nat.le_total n (needed + 1) with hn | hn
  · rw [Nat.min_eq_left hn, List.take_of_length_le (by omega), List.drop_of_length_le (by omega), List.append_nil]
  · rw [Nat.min_eq_right hn, List.take_append_drop]

/-- Two counts, of which one is not less, give different answers exactly when only one reaches the bars of
a squeeze and the entry has an answer. -/
theorem answers_eq_iff {taken late out : Prop} [Decidable taken] [Decidable late] [Decidable out] {n m k : Nat}
    (hmk : m ≤ k) {answer silent : TickOutcome} :
    (if taken ∧ late ∧ out ∧ n ≤ k then answer else silent) =
        (if taken ∧ late ∧ out ∧ n ≤ m then answer else silent) ↔
      (taken → late ∧ out ∧ answer ≠ silent → n ≤ m ∨ k < n) := by
  by_cases htaken : taken ∧ late ∧ out
  · obtain ⟨htaken, hlate, hout⟩ := htaken
    simp only [htaken, hlate, hout, true_and, forall_const]
    by_cases hm : n ≤ m
    · have hk : n ≤ k := by omega
      simp [hm, hk]
    · by_cases hk : n ≤ k
      · have hnk : ¬ k < n := by omega
        simp [hm, hk, hnk]
      · have hnk : k < n := by omega
        simp [hm, hk, hnk]
  · have hsame : ∀ P : Prop, ¬ (taken ∧ late ∧ out ∧ P) := fun P h => htaken ⟨h.1, h.2.1, h.2.2.1⟩
    rw [if_neg (hsame _), if_neg (hsame _)]
    exact ⟨fun _ ht h => absurd ⟨ht, h.1, h.2.1⟩ htaken, fun _ => rfl⟩

/-- Warm-up and live history give the same answers exactly when every later breakout counts the same. -/
theorem outputs_warmed_iff (stdDev : Decimal → Option Decimal) (name : String) (pairs : List Pair)
    (earlier later : List PriceEvent) :
    (strategy stdDev).outputs ((strategy stdDev).warmed (new name pairs) earlier) later =
        ((strategy stdDev).outputs (new name pairs) (earlier ++ later)).drop earlier.length ↔
      CountedAlike stdDev name pairs earlier later := by
  have hwarmed : Holds stdDev name pairs (fun p => counted (candlesOf pairs p earlier).length) earlier
      ((strategy stdDev).warmed (new name pairs) earlier) := by
    have h : Holds stdDev name pairs _ earlier _ := holds_warmed name pairs earlier
    refine ⟨h.name_eq, h.pairs_eq, h.history_eq, fun p => ?_⟩
    rw [counted_length (length_squeezeFlags stdDev _)]
    exact h.count_eq p
  have hfresh : Holds stdDev name pairs (fun _ => counted 0) [] (new name pairs) := holds_new name pairs _ fun _ => rfl
  rw [Lib.Machine.drop_outputs_append, Lib.Machine.outputs_eq_iff]
  refine forall_congr' fun i => forall_congr' fun hi => ?_
  have hw := hwarmed.after (fun _ => Nat.le_refl _) (later.take i)
  have hl := hfresh.after (fun _ => Nat.zero_le _) (earlier ++ later.take i)
  rw [List.nil_append, Lib.Machine.after_append] at hl
  have hdrop : ∀ flags : List (Option Bool), counted 0 flags = flags.drop (needed + 1) := by
    intro flags
    unfold counted
    rw [Nat.zero_min, List.take_zero, List.nil_append]
  show (onPrice stdDev later[i] _).1 = (onPrice stdDev later[i] _).1 ↔ _
  rw [hw.answer, hl.answer]
  have hle : ∀ n flags, squeezeRun (counted 0 flags) ≤ squeezeRun (counted n flags) := by
    intro n flags
    rw [hdrop]
    exact squeezeRun_le_append _ _
  rw [answers_eq_iff (hle _ _), hdrop, and_imp]
  rfl

end SqueezeMomentumV1

/-! ## All rule strategies -/

namespace RuleStrategy

/-- Where the two paths of a strategy may part: only in what `SqueezeMomentumV1` counts. -/
def CountedAlike (stdDev : Decimal → Option Decimal) (name : String) (pairs : List Pair)
    (earlier later : List PriceEvent) : RuleStrategy → Prop
  | squeezeMomentumV1 => SqueezeMomentumV1.CountedAlike stdDev name pairs earlier later
  | _ => True

/-- After its warm-up a fresh strategy answers as one that was live from the start, exactly where the
squeezes of the later events count the same. -/
theorem warmup_equals_live_iff (stdDev : Decimal → Option Decimal) (strategy : RuleStrategy) (name : String)
    (pairs : List Pair) (earlier later : List PriceEvent) :
    strategy.afterWarmup stdDev name pairs earlier later =
        (strategy.live stdDev name pairs (earlier ++ later)).drop earlier.length ↔
      strategy.CountedAlike stdDev name pairs earlier later := by
  cases strategy with
  | bbMeanRevertV1 =>
    refine iff_true_intro (Lib.Machine.outputs_warmed _ (fun event s => ?_) _ earlier later)
    exact s.warmup_eq_onPrice _ _ _ event
  | donchianTrendV1 =>
    refine iff_true_intro (Lib.Machine.outputs_warmed _ (fun event s => ?_) _ earlier later)
    exact s.warmup_eq_onPrice _ _ _ event
  | donchianTrendEvolveV1 params =>
    refine iff_true_intro (Lib.Machine.outputs_warmed _ (fun event s => ?_) _ earlier later)
    show { s with toHistoryStrategy := _ } = { s with toHistoryStrategy := _ }
    rw [s.toHistoryStrategy.warmup_eq_onPrice _ _ (DonchianTrend.signal s.entryChannel s.atrBaselineBars) event]
  | squeezeMomentumV1 => exact SqueezeMomentumV1.outputs_warmed_iff stdDev name pairs earlier later
  | fxNewV1 =>
    exact iff_true_intro
      (Lib.Machine.outputs_warmed _ (fun event s => FxNewV1.warmup_eq_onPrice event s) _ earlier later)

/-! ## A squeeze that began before the 24th candle -/

/-- The deviation of a variance that is the square of a fraction. -/
def exactDeviation (variance : Decimal) : Option Decimal :=
  some ((variance.num.natAbs.sqrt : Decimal) / (variance.den.sqrt : Decimal))

/-- An hourly candle around a close. -/
def sampleBar (hour : Nat) (close : Decimal) : PriceEvent :=
  let timestamp := hours hour
  { pair := "USD_JPY", exchange := .gmoFx, timestamp
    candle :=
      { pair := "USD_JPY", exchange := .gmoFx, timeframe := "H1", «open» := close, high := close + 1
        low := close - 1, close, volume := none, bestBid := none, bestAsk := none, timestamp } }

/-- 23 candles whose closes change little. -/
def sampleQuietBars : List PriceEvent :=
  (List.range 23).map fun hour => sampleBar hour (if hour % 2 = 0 then 99 else 101)

/-- The 24th candle breaks out of a squeeze that three warmed-up candles have counted and no live candle. -/
theorem sampleQuietBars_breakout :
    afterWarmup exactDeviation "squeeze" ["USD_JPY"] sampleQuietBars [sampleBar 23 141] squeezeMomentumV1 ≠
      (live exactDeviation "squeeze" ["USD_JPY"] (sampleQuietBars ++ [sampleBar 23 141]) squeezeMomentumV1).drop
        sampleQuietBars.length := by
  decide +kernel

end RuleStrategy

end AutoTrader
