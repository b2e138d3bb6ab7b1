import AutoTrader.Core.Event
import AutoTrader.Sim.Params
import Mathlib.Data.List.Forall2

/-!
# Candles from ticks

`CandleBuilder` builds the candles of one pair and one timeframe. A candle is finished by a tick of another period
(`onTick`) or by the clock (`tryComplete`). The fields of the candle under way are optional and not tied to one
another; `Shows` reads them as the candle that is open (`OpenCandle`), and `call_spec` says what a call does to that
candle and what it returns, for every builder that shows one.
-/

namespace AutoTrader

open Sim (roundF64 toU64)

/-- Whole seconds since the epoch. -/
def DateTime.timestamp (ts : DateTime) : Int := Int.fdiv ts 1000000

/-- The last instant that a time can be. -/
def maxUtc : DateTime := seconds 8210266876799 + 999999

/-- The builder of one feed's candles of one timeframe. -/
structure CandleBuilder where
  pair : Pair
  exchange : Exchange
  timeframe : String
  periodSecs : Int
  currentPeriodStart : Option DateTime
  «open» : Option Decimal
  high : Option Decimal
  low : Option Decimal
  close : Option Decimal
  volume : Decimal
  lastBestBid : Option Decimal
  lastBestAsk : Option Decimal

/-- What a builder is told of a trade or a quote. -/
structure BuilderTick where
  price : Decimal
  size : Decimal
  ts : DateTime
  bestBid : Option Decimal
  bestAsk : Option Decimal
  deriving DecidableEq, Repr

/-- The end of a period, where it is an instant. -/
def checkedPeriodEnd (start : DateTime) (periodSecs : Int) : Option DateTime :=
  if start + seconds periodSecs ≤ maxUtc then some (start + seconds periodSecs) else none

namespace CandleBuilder

/-- The length of a timeframe's period. -/
def timeframeSecs : String → Option Int
  | "M1" => some 60
  | "M5" => some 300
  | "H1" => some 3600
  | _ => none

/-- There is no builder of another timeframe. -/
def new (pair : Pair) (exchange : Exchange) (timeframe : String) : Option CandleBuilder :=
  (timeframeSecs timeframe).map fun periodSecs =>
    { pair, exchange, timeframe, periodSecs, currentPeriodStart := none, «open» := none, high := none, low := none
      close := none, volume := 0, lastBestBid := none, lastBestAsk := none }

variable (b : CandleBuilder)

/-- The start of the period of a time. -/
def periodStart (ts : DateTime) : DateTime :=
  seconds (ts.timestamp - Int.tmod ts.timestamp b.periodSecs)

/-- The latest best bid and ask are kept. -/
def keepBest (bestBid bestAsk : Option Decimal) : CandleBuilder :=
  { b with
    lastBestBid := if bestBid.isSome then bestBid else b.lastBestBid
    lastBestAsk := if bestAsk.isSome then bestAsk else b.lastBestAsk }

/-- The fields are taken one after the other, and the first that is not there ends it. The volume is written as a
text and read as a float, which is taken to be exact. -/
def completeCurrent : Option Candle × CandleBuilder :=
  match b.currentPeriodStart with
  | none => (none, b)
  | some ps =>
    match b.open with
    | none => (none, b)
    | some o =>
      match b.high with
      | none => (none, { b with «open» := none })
      | some h =>
        match b.low with
        | none => (none, { b with «open» := none, high := none })
        | some l =>
          match b.close with
          | none => (none, { b with «open» := none, high := none, low := none })
          | some c =>
            (some { pair := b.pair, exchange := b.exchange, timeframe := b.timeframe, «open» := o, high := h
                    low := l, close := c, volume := some (toU64 (roundF64 b.volume)).toUInt64
                    bestBid := b.lastBestBid, bestAsk := b.lastBestAsk, timestamp := ps },
              { b with «open» := none, high := none, low := none, close := none, currentPeriodStart := none
                       volume := 0 })

/-- The tick in the candle of its period. It is `none` where the code is unreachable: a period is under way without
a high or a low. -/
def recordTick (ps : DateTime) (t : BuilderTick) : Option CandleBuilder :=
  if b.currentPeriodStart ≠ some ps then
    some { b with
      currentPeriodStart := some ps, «open» := some t.price, high := some t.price, low := some t.price
      close := some t.price, volume := t.size }
  else
    match b.high, b.low with
    | some high, some low =>
      some { b with
        high := if t.price > high then some t.price else some high
        low := if t.price < low then some t.price else some low
        close := some t.price, volume := b.volume + t.size }
    | _, _ => none

/-- A tick, with the candle it completes. -/
def onTick (t : BuilderTick) : Option (Option Candle × CandleBuilder) :=
  let ps := b.periodStart t.ts
  let (completed, b) :=
    if b.currentPeriodStart.isSome ∧ b.currentPeriodStart ≠ some ps then b.completeCurrent else (none, b)
  ((b.keepBest t.bestBid t.bestAsk).recordTick ps t).map fun b => (completed, b)

/-- The timer: a candle whose period is over is completed. -/
def tryComplete (now : DateTime) (bestBid bestAsk : Option Decimal) : Option Candle × CandleBuilder :=
  match b.currentPeriodStart with
  | none => (none, b)
  | some ps =>
    match checkedPeriodEnd ps b.periodSecs with
    | none => (none, b)
    | some periodEnd => if now < periodEnd then (none, b) else (b.keepBest bestBid bestAsk).completeCurrent

end CandleBuilder

/-! ## Calls -/

/-- The calls of a builder. -/
inductive BuilderCall where
  | onTick (t : BuilderTick)
  | tryComplete (now : DateTime) (bestBid bestAsk : Option Decimal)
  deriving DecidableEq, Repr

/-- The time a call is made at, as far as the builder is told. -/
def BuilderCall.time : BuilderCall → DateTime
  | .onTick t => t.ts
  | .tryComplete now _ _ => now

namespace CandleBuilder

/-- What each call does. -/
def call (b : CandleBuilder) : BuilderCall → Option (Option Candle × CandleBuilder)
  | .onTick t => b.onTick t
  | .tryComplete now bestBid bestAsk => some (b.tryComplete now bestBid bestAsk)

/-- One more call, after which the candle it returned is added to those returned before. -/
def callNext (s : List Candle × CandleBuilder) (c : BuilderCall) : Option (List Candle × CandleBuilder) :=
  (s.2.call c).map fun r => (s.1 ++ r.1.toList, r.2)

/-- The candles that a sequence of calls returns, and the builder after it. -/
def run (b : CandleBuilder) (calls : List BuilderCall) : Option (List Candle × CandleBuilder) :=
  calls.foldlM callNext ([], b)

end CandleBuilder

/-! ## The open candle -/

/-- The candle of the current period, as its ticks make it. -/
structure OpenCandle where
  start : DateTime
  opening : Decimal
  high : Decimal
  low : Decimal
  close : Decimal
  volume : Decimal

namespace OpenCandle

/-- The candle of one tick. -/
def first (start : DateTime) (t : BuilderTick) : OpenCandle := ⟨start, t.price, t.price, t.price, t.price, t.size⟩

/-- A tick enters the candle. -/
def add (o : OpenCandle) (t : BuilderTick) : OpenCandle :=
  { o with high := max o.high t.price, low := min o.low t.price, close := t.price, volume := o.volume + t.size }

/-- The candle of these ticks of one period. -/
def ofTicks (start : DateTime) : List BuilderTick → Option OpenCandle
  | [] => none
  | t :: ts => some (ts.foldl add (first start t))

theorem ofTicks_concat {start : DateTime} {ts : List BuilderTick} {o : OpenCandle} (h : ofTicks start ts = some o)
    (t : BuilderTick) : ofTicks start (ts ++ [t]) = some (o.add t) := by
  match ts with
  | [] => exact absurd h.symm (Option.some_ne_none o)
  | u :: us =>
    obtain rfl := Option.some.inj h
    rw [List.cons_append, ofTicks, List.foldl_append]
    rfl

end OpenCandle

namespace CandleBuilder

/-- The fields are those of the candle that is open, or no period is under way. -/
def Shows (b : CandleBuilder) : Option OpenCandle → Prop
  | none => b.currentPeriodStart = none
  | some o => b.currentPeriodStart = some o.start ∧ b.open = some o.opening ∧ b.high = some o.high ∧
      b.low = some o.low ∧ b.close = some o.close ∧ b.volume = o.volume

/-- Two builders of the same candles. -/
structure Alike (b b' : CandleBuilder) : Prop where
  pair : b'.pair = b.pair
  exchange : b'.exchange = b.exchange
  timeframe : b'.timeframe = b.timeframe
  periodSecs : b'.periodSecs = b.periodSecs

theorem Alike.refl (b : CandleBuilder) : b.Alike b := ⟨rfl, rfl, rfl, rfl⟩

theorem Alike.trans {b b' b'' : CandleBuilder} (h : b.Alike b') (h' : b'.Alike b'') : b.Alike b'' :=
  ⟨h'.pair.trans h.pair, h'.exchange.trans h.exchange, h'.timeframe.trans h.timeframe, h'.periodSecs.trans h.periodSecs⟩

/-- The open candle as the finished one. -/
structure Finishes (b : CandleBuilder) (o : OpenCandle) (candle : Candle) : Prop where
  pair : candle.pair = b.pair
  exchange : candle.exchange = b.exchange
  timeframe : candle.timeframe = b.timeframe
  opening : candle.open = o.opening
  high : candle.high = o.high
  low : candle.low = o.low
  close : candle.close = o.close
  volume : candle.volume = some (toU64 (roundF64 o.volume)).toUInt64
  timestamp : candle.timestamp = o.start

theorem Finishes.of_alike {b b' : CandleBuilder} {o : OpenCandle} {candle : Candle} (h : b'.Finishes o candle)
    (hlike : b.Alike b') : b.Finishes o candle :=
  { h with
    pair := h.pair.trans hlike.pair
    exchange := h.exchange.trans hlike.exchange
    timeframe := h.timeframe.trans hlike.timeframe }

/-- What is returned for the open candle that a call finishes, if it finishes one. -/
def Returns (b : CandleBuilder) : Option OpenCandle → Option Candle → Prop
  | none, none => True
  | some o, some candle => b.Finishes o candle
  | _, _ => False

/-- The call ends the period that is under way. -/
def Ends (b : CandleBuilder) (start : DateTime) : BuilderCall → Prop
  | .onTick t => b.periodStart t.ts ≠ start
  | .tryComplete now _ _ => start + seconds b.periodSecs ≤ maxUtc ∧ start + seconds b.periodSecs ≤ now

instance (b : CandleBuilder) (start : DateTime) : ∀ c, Decidable (b.Ends start c)
  | .onTick _ => inferInstanceAs (Decidable (_ ≠ _))
  | .tryComplete _ _ _ => inferInstanceAs (Decidable (_ ∧ _))

/-- The open candle that a call finishes. -/
def finished (b : CandleBuilder) (c : BuilderCall) : Option OpenCandle → Option OpenCandle
  | none => none
  | some o => if b.Ends o.start c then some o else none

/-- The candle that is open after a call. -/
def openAfter (b : CandleBuilder) : BuilderCall → Option OpenCandle → Option OpenCandle
  | .onTick t, none => some (.first (b.periodStart t.ts) t)
  | .onTick t, some o =>
    if b.Ends o.start (.onTick t) then some (.first (b.periodStart t.ts) t) else some (o.add t)
  | .tryComplete _ _ _, none => none
  | .tryComplete now bestBid bestAsk, some o =>
    if b.Ends o.start (.tryComplete now bestBid bestAsk) then none else some o

section

variable {b b' : CandleBuilder} {o : OpenCandle}

theorem new_shows {pair : Pair} {exchange : Exchange} {timeframe : String}
    (h : new pair exchange timeframe = some b) : b.Shows none := by
  obtain ⟨periodSecs, -, rfl⟩ := Option.map_eq_some_iff.mp h
  rfl

theorem keepBest_shows (bestBid bestAsk : Option Decimal) {o : Option OpenCandle} (h : b.Shows o) :
    (b.keepBest bestBid bestAsk).Shows o := by
  cases o <;> exact h

theorem keepBest_alike (bestBid bestAsk : Option Decimal) : b.Alike (b.keepBest bestBid bestAsk) :=
  ⟨rfl, rfl, rfl, rfl⟩

theorem completeCurrent_spec (h : b.Shows (some o)) :
    ∃ candle b', b.completeCurrent = (some candle, b') ∧ b.Finishes o candle ∧ b.Alike b' ∧ b'.Shows none := by
  obtain ⟨hstart, hopen, hhigh, hlow, hclose, hvolume⟩ := h
  simp only [completeCurrent, hstart, hopen, hhigh, hlow, hclose, hvolume]
  exact ⟨_, _, rfl, ⟨rfl, rfl, rfl, rfl, rfl, rfl, rfl, rfl, rfl⟩, ⟨rfl, rfl, rfl, rfl⟩, rfl⟩

theorem recordTick_same {t : BuilderTick} (h : b.Shows (some o)) :
    ∃ b', b.recordTick o.start t = some b' ∧ b.Alike b' ∧ b'.Shows (some (o.add t)) := by
  obtain ⟨hstart, hopen, hhigh, hlow, hclose, hvolume⟩ := h
  simp only [recordTick, hstart, hhigh, hlow, ne_eq, not_true_eq_false, ↓reduceIte]
  refine ⟨_, rfl, ⟨rfl, rfl, rfl, rfl⟩, rfl, hopen, ?_, ?_, rfl, ?_⟩
  · show (if t.price > o.high then some t.price else some o.high) = some (max o.high t.price)
    rw [max_def_lt, apply_ite some]
  · show (if t.price < o.low then some t.price else some o.low) = some (min o.low t.price)
    rw [min_comm, min_def_lt, apply_ite some]
  · show b.volume + t.size = o.volume + t.size
    rw [hvolume]

theorem recordTick_first {t : BuilderTick} (h : b.Shows none) (ps : DateTime) :
    ∃ b', b.recordTick ps t = some b' ∧ b.Alike b' ∧ b'.Shows (some (.first ps t)) := by
  have hstart : b.currentPeriodStart ≠ some ps := by
    rw [show b.currentPeriodStart = none from h]
    exact (Option.some_ne_none ps).symm
  rw [recordTick, if_pos hstart]
  exact ⟨_, rfl, ⟨rfl, rfl, rfl, rfl⟩, rfl, rfl, rfl, rfl, rfl, rfl⟩

/-- A tick of the period under way. -/
theorem onTick_same {t : BuilderTick} (h : b.Shows (some o)) (ht : b.periodStart t.ts = o.start) :
    ∃ b', b.onTick t = some (none, b') ∧ b.Alike b' ∧ b'.Shows (some (o.add t)) := by
  obtain ⟨b', hb', hlike, hshows⟩ := recordTick_same (t := t) (keepBest_shows t.bestBid t.bestAsk h)
  refine ⟨b', ?_, (keepBest_alike _ _).trans hlike, hshows⟩
  have hsame : ¬(b.currentPeriodStart.isSome ∧ b.currentPeriodStart ≠ some o.start) := fun hne => hne.2 h.1
  simp only [onTick, ht]
  rw [if_neg hsame, hb']
  rfl

/-- A tick when no period is under way. -/
theorem onTick_first {t : BuilderTick} (h : b.Shows none) :
    ∃ b', b.onTick t = some (none, b') ∧ b.Alike b' ∧ b'.Shows (some (.first (b.periodStart t.ts) t)) := by
  obtain ⟨b', hb', hlike, hshows⟩ := recordTick_first (t := t) (keepBest_shows t.bestBid t.bestAsk h)
    (b.periodStart t.ts)
  refine ⟨b', ?_, (keepBest_alike _ _).trans hlike, hshows⟩
  have hnone : b.currentPeriodStart = none := h
  have hclosed : ¬(b.currentPeriodStart.isSome ∧ b.currentPeriodStart ≠ some (b.periodStart t.ts)) := by
    simp [hnone]
  simp only [onTick]
  rw [if_neg hclosed, hb']
  rfl

/-- A tick of another period than the one under way. -/
theorem onTick_other {t : BuilderTick} (h : b.Shows (some o)) (ht : b.periodStart t.ts ≠ o.start) :
    ∃ candle b', b.onTick t = some (some candle, b') ∧ b.Finishes o candle ∧ b.Alike b' ∧
      b'.Shows (some (.first (b.periodStart t.ts) t)) := by
  obtain ⟨candle, b₁, hb₁, hfinishes, hlike₁, hshows₁⟩ := completeCurrent_spec h
  obtain ⟨b', hb', hlike, hshows⟩ := recordTick_first (t := t) (keepBest_shows t.bestBid t.bestAsk hshows₁)
    (b.periodStart t.ts)
  refine ⟨candle, b', ?_, hfinishes, hlike₁.trans ((keepBest_alike _ _).trans hlike), hshows⟩
  have hother : b.currentPeriodStart.isSome ∧ b.currentPeriodStart ≠ some (b.periodStart t.ts) := by
    rw [h.1]
    exact ⟨rfl, fun heq => ht (Option.some.inj heq).symm⟩
  simp only [onTick]
  rw [if_pos hother, hb₁]
  simp only [hb', Option.map_some]

theorem tryComplete_ends {now : DateTime} {bestBid bestAsk : Option Decimal} (h : b.Shows (some o))
    (hends : b.Ends o.start (.tryComplete now bestBid bestAsk)) :
    ∃ candle b', b.tryComplete now bestBid bestAsk = (some candle, b') ∧ b.Finishes o candle ∧ b.Alike b' ∧
      b'.Shows none := by
  obtain ⟨candle, b', hb', hfinishes, hlike, hshows⟩ := completeCurrent_spec (keepBest_shows bestBid bestAsk h)
  obtain ⟨hmax, hnow⟩ := hends
  refine ⟨candle, b', ?_, hfinishes.of_alike (keepBest_alike _ _), (keepBest_alike _ _).trans hlike, hshows⟩
  simp only [tryComplete, h.1, checkedPeriodEnd, if_pos hmax]
  rw [if_neg (not_lt.mpr hnow), hb']

theorem tryComplete_goesOn {now : DateTime} {bestBid bestAsk : Option Decimal} (h : b.Shows (some o))
    (hends : ¬b.Ends o.start (.tryComplete now bestBid bestAsk)) :
    b.tryComplete now bestBid bestAsk = (none, b) := by
  simp only [tryComplete, h.1, checkedPeriodEnd]
  by_cases hmax : o.start + seconds b.periodSecs ≤ maxUtc
  · simp only [if_pos hmax]
    exact if_pos (not_le.mp fun hnow => hends ⟨hmax, hnow⟩)
  · simp only [if_neg hmax]

theorem tryComplete_none {now : DateTime} {bestBid bestAsk : Option Decimal} (h : b.Shows none) :
    b.tryComplete now bestBid bestAsk = (none, b) := by
  have h : b.currentPeriodStart = none := h
  simp only [tryComplete, h]

/-- A call finishes the open candle if it ends the period, and opens one if it is a tick of another. -/
theorem call_spec (c : BuilderCall) {open' : Option OpenCandle} (h : b.Shows open') :
    ∃ candle b', b.call c = some (candle, b') ∧ b.Returns (b.finished c open') candle ∧ b.Alike b' ∧
      b'.Shows (b.openAfter c open') := by
  match c, open' with
  | .onTick t, none =>
    obtain ⟨b', hb', hlike, hshows⟩ := onTick_first (t := t) h
    exact ⟨none, b', hb', trivial, hlike, hshows⟩
  | .onTick t, some o =>
    by_cases hends : b.Ends o.start (.onTick t)
    · obtain ⟨candle, b', hb', hfinishes, hlike, hshows⟩ := onTick_other h hends
      rw [finished, openAfter, if_pos hends, if_pos hends]
      exact ⟨some candle, b', hb', hfinishes, hlike, hshows⟩
    · obtain ⟨b', hb', hlike, hshows⟩ := onTick_same h (not_not.mp hends)
      rw [finished, openAfter, if_neg hends, if_neg hends]
      exact ⟨none, b', hb', trivial, hlike, hshows⟩
  | .tryComplete now bestBid bestAsk, none =>
    exact ⟨none, b, congrArg some (tryComplete_none h), trivial, .refl b, h⟩
  | .tryComplete now bestBid bestAsk, some o =>
    by_cases hends : b.Ends o.start (.tryComplete now bestBid bestAsk)
    · obtain ⟨candle, b', hb', hfinishes, hlike, hshows⟩ := tryComplete_ends h hends
      rw [finished, openAfter, if_pos hends, if_pos hends]
      exact ⟨some candle, b', congrArg some hb', hfinishes, hlike, hshows⟩
    · rw [finished, openAfter, if_neg hends, if_neg hends]
      exact ⟨none, b, congrArg some (tryComplete_goesOn h hends), trivial, .refl b, h⟩

end

/-! ## Runs -/

section

variable {b b' : CandleBuilder}

theorem Alike.periodStart_eq (h : b.Alike b') (ts : DateTime) : b'.periodStart ts = b.periodStart ts := by
  rw [periodStart, periodStart, h.periodSecs]

theorem Alike.ends_iff (h : b.Alike b') (start : DateTime) (c : BuilderCall) : b'.Ends start c ↔ b.Ends start c := by
  cases c with
  | onTick t => rw [Ends, Ends, h.periodStart_eq]
  | tryComplete now bestBid bestAsk => rw [Ends, Ends, h.periodSecs]

theorem Alike.finished_eq (h : b.Alike b') (c : BuilderCall) (o : Option OpenCandle) :
    b'.finished c o = b.finished c o := by
  cases o with
  | none => rfl
  | some o => simp only [finished, h.ends_iff]

theorem Alike.openAfter_eq (h : b.Alike b') (c : BuilderCall) (o : Option OpenCandle) :
    b'.openAfter c o = b.openAfter c o := by
  cases c <;> cases o <;> simp only [openAfter, h.ends_iff, h.periodStart_eq]

/-- The candles that a sequence of calls finishes, and the one that is open after it. -/
def trackNext (b : CandleBuilder) (s : List OpenCandle × Option OpenCandle) (c : BuilderCall) :
    List OpenCandle × Option OpenCandle :=
  (s.1 ++ (b.finished c s.2).toList, b.openAfter c s.2)

/-- The candles that the calls complete, and the one left open. -/
def track (b : CandleBuilder) (calls : List BuilderCall) : List OpenCandle × Option OpenCandle :=
  calls.foldl b.trackNext ([], none)

theorem track_concat (calls : List BuilderCall) (c : BuilderCall) :
    b.track (calls ++ [c]) = b.trackNext (b.track calls) c := by
  rw [track, List.foldl_append]
  rfl

theorem run_concat (calls : List BuilderCall) (c : BuilderCall) :
    b.run (calls ++ [c]) = (b.run calls).bind fun s => callNext s c := by
  simp only [run, List.foldlM_append, List.foldlM_cons, List.foldlM_nil, bind_pure]
  rfl

theorem forall₂_returns {o : Option OpenCandle} {candle : Option Candle} (h : b.Returns o candle) :
    List.Forall₂ b.Finishes o.toList candle.toList := by
  rcases o with _ | o <;> rcases candle with _ | candle
  · exact .nil
  · exact h.elim
  · exact h.elim
  · exact .cons h .nil

/-- A new builder never runs into the unreachable part, and it returns the candles that are finished. -/
theorem run_spec (hnew : b.Shows none) (calls : List BuilderCall) :
    ∃ candles b', b.run calls = some (candles, b') ∧ List.Forall₂ b.Finishes (b.track calls).1 candles ∧ b.Alike b' ∧
      b'.Shows (b.track calls).2 := by
  induction calls using List.reverseRecOn with
  | nil => exact ⟨[], b, rfl, .nil, .refl b, hnew⟩
  | append_singleton calls c ih =>
    obtain ⟨candles, b₁, hrun, hfinishes, hlike, hshows⟩ := ih
    obtain ⟨candle, b', hcall, hreturns, hlike', hshows'⟩ := call_spec c hshows
    rw [hlike.finished_eq] at hreturns
    rw [hlike.openAfter_eq] at hshows'
    refine ⟨candles ++ candle.toList, b', ?_, ?_, hlike.trans hlike', ?_⟩
    · rw [run_concat, hrun, Option.bind_some, callNext, hcall]
      rfl
    · rw [track_concat, trackNext]
      exact List.rel_append hfinishes ((forall₂_returns hreturns).imp fun _ _ h => h.of_alike hlike)
    · rw [track_concat]
      exact hshows'

end

end CandleBuilder

end AutoTrader
