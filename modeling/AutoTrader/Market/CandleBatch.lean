import AutoTrader.Market.CandleRuns
import Mathlib.Algebra.Order.BigOperators.Group.List

/-!
# Candles as a batch

In calls whose ticks are in the order of their times, with a clock that does not run ahead of the next tick, the
builder returns what a batch over all ticks gives (`Batched`): one candle for each completed period that contains
ticks, made of all ticks of the period. Such calls open no period again, so this is `Fresh` of the runs.
-/

namespace AutoTrader

open Sim (roundF64 toU64 maxU64 toU64_intCast)

/-! ## The candle of a batch -/

namespace OpenCandle

theorem foldl_add (ts : List BuilderTick) : ∀ o : OpenCandle, ts.foldl add o =
    { start := o.start
      opening := o.opening
      high := (ts.map BuilderTick.price).foldl max o.high
      low := (ts.map BuilderTick.price).foldl min o.low
      close := (ts.getLast?.map BuilderTick.price).getD o.close
      volume := o.volume + (ts.map BuilderTick.size).sum } := by
  induction ts with
  | nil =>
    intro o
    simp
  | cons t ts ih =>
    intro o
    rw [List.foldl_cons, ih]
    cases h : ts.getLast? <;> simp [add, List.getLast?_cons, h, add_assoc]

end OpenCandle

namespace CandleBuilder

/-! ## Batches -/

/-- Calls with ticks in the order of their times, none of them before a clock reading that was given earlier. -/
structure Chronological (calls : List BuilderCall) : Prop where
  ordered : calls.Pairwise fun c d => ∀ t, d = .onTick t → c.time ≤ t.ts
  timestamps : ∀ t, .onTick t ∈ calls → 0 ≤ t.ts
  sizes : ∀ t, .onTick t ∈ calls → 0 ≤ t.size
  representable : ∀ c ∈ calls, c.time ≤ maxUtc

/-- A call was told of a time at which the period is over. -/
def CompletedBy (b : CandleBuilder) (calls : List BuilderCall) (start : DateTime) : Prop :=
  ∃ c ∈ calls, start + seconds b.periodSecs ≤ c.time

/-- The candle of these ticks. -/
structure Aggregates (ticks : List BuilderTick) (candle : Candle) : Prop where
  first : ticks.head?.map BuilderTick.price = some candle.open
  high : (ticks.map BuilderTick.price).max? = some candle.high
  low : (ticks.map BuilderTick.price).min? = some candle.low
  last : ticks.getLast?.map BuilderTick.price = some candle.close
  volume : ∃ v : UInt64, candle.volume = some v ∧
    (v.toNat : Int) = min (roundF64 (ticks.map BuilderTick.size).sum) maxU64

/-- What a number of calls produces. -/
structure Batched (b : CandleBuilder) (calls : List BuilderCall) (candles : List Candle) (b' : CandleBuilder) :
    Prop where
  ascending : candles.Pairwise (·.timestamp < ·.timestamp)
  periods : ∀ start, (∃ candle ∈ candles, candle.timestamp = start) ↔
    (∃ t, .onTick t ∈ calls ∧ b.periodStart t.ts = start) ∧ b.CompletedBy calls start
  aggregates : ∀ candle ∈ candles, Aggregates (b.ticksIn calls candle.timestamp) candle
  /-- The candle of a tick is finished or open, and not both. -/
  owned : ∀ t, .onTick t ∈ calls → ((∃ candle ∈ candles, candle.timestamp = b.periodStart t.ts) ↔
    b'.currentPeriodStart ≠ some (b.periodStart t.ts))
  opened : ∀ start, b'.currentPeriodStart = some start →
    b'.Shows (OpenCandle.ofTicks start (b.ticksIn calls start))

/-! ## Periods -/

section

variable {b : CandleBuilder} {ts us start : DateTime}

theorem periodStart_eq (hts : 0 ≤ ts) :
    b.periodStart ts = seconds b.periodSecs * (ts / seconds b.periodSecs) := by
  have hsecs : ts.timestamp = ts / 1000000 := Int.fdiv_eq_ediv_of_nonneg ts (by decide)
  have hnonneg : 0 ≤ ts / 1000000 := Int.ediv_nonneg hts (by decide)
  rw [periodStart, hsecs, Int.tmod_eq_emod_of_nonneg hnonneg, seconds, seconds, Int.mul_comm b.periodSecs,
    ← Int.ediv_ediv_of_nonneg (by decide), Int.emod_def, sub_sub_cancel, mul_comm, mul_assoc]

theorem lt_periodEnd (hb : 0 < b.periodSecs) (hts : 0 ≤ ts) : ts < b.periodStart ts + seconds b.periodSecs := by
  rw [periodStart_eq hts]
  exact Int.lt_mul_ediv_self_add (by rw [seconds]; omega)

/-- A time in a period that has started is in this period or after its end. -/
theorem periodStart_of_lt (hb : 0 < b.periodSecs) (hts : 0 ≤ ts) (hle : ts ≤ us)
    (hlt : us < b.periodStart ts + seconds b.periodSecs) : b.periodStart us = b.periodStart ts := by
  have hpos : 0 < seconds b.periodSecs := by rw [seconds]; omega
  rw [periodStart_eq hts] at hlt ⊢
  rw [periodStart_eq (hts.trans hle)]
  have hup : us / seconds b.periodSecs < ts / seconds b.periodSecs + 1 :=
    Int.ediv_lt_of_lt_mul hpos (by rw [add_mul, one_mul, mul_comm]; exact hlt)
  have hdown := Int.ediv_le_ediv hpos hle
  rw [le_antisymm (Int.lt_add_one_iff.mp hup) hdown]

end

/-! ## The order of the calls -/

section

variable {b : CandleBuilder} {calls : List BuilderCall} {c : BuilderCall} {start : DateTime}

/-- Of two calls of which the second is a tick. -/
theorem Chronological.le_tick (h : Chronological calls) {c : BuilderCall} {u : BuilderTick}
    (hsub : [c, .onTick u].Sublist calls) : c.time ≤ u.ts :=
  List.pairwise_iff_forall_sublist.mp h.ordered hsub u rfl

/-- A call that is told of a later time than a tick comes after it. -/
theorem Chronological.tick_first (h : Chronological calls) {t : BuilderTick} {c : BuilderCall}
    (ht : .onTick t ∈ calls) (hc : c ∈ calls) (hlt : t.ts < c.time) : [.onTick t, c].Sublist calls := by
  obtain ⟨before, after, rfl⟩ := List.mem_iff_append.mp ht
  rcases List.mem_append.mp hc with hc | hc
  · have hle := h.le_tick
      ((List.singleton_sublist.mpr hc).append (List.singleton_sublist.mpr (List.mem_cons_self (l := after))))
    exact absurd hle (not_le.mpr hlt)
  · rcases List.mem_cons.mp hc with rfl | hc
    · exact absurd hlt (lt_irrefl _)
    · exact ((List.singleton_sublist.mpr hc).cons_cons _).trans (List.sublist_append_right _ _)

theorem Chronological.end_le (h : Chronological calls) (hb : 0 < b.periodSecs) {t : BuilderTick} {c : BuilderCall}
    (hsub : [.onTick t, c].Sublist calls) (hends : b.Ends (b.periodStart t.ts) c) :
    b.periodStart t.ts + seconds b.periodSecs ≤ c.time := by
  have hts := h.timestamps t (hsub.subset List.mem_cons_self)
  match c, hends with
  | .onTick u, hends =>
    by_contra hlt
    exact hends (periodStart_of_lt hb hts (h.le_tick hsub) (not_le.mp hlt))
  | .tryComplete now bestBid bestAsk, hends => exact hends.2

theorem Chronological.not_reopens (h : Chronological calls) (hb : 0 < b.periodSecs) : ¬b.Reopens calls := by
  rintro ⟨t, e, u, hsub, hu, hends⟩
  have hpair : [BuilderCall.onTick t, e].Sublist calls :=
    (List.sublist_append_left [BuilderCall.onTick t, e] [BuilderCall.onTick u]).trans hsub
  have hend := h.end_le hb hpair hends
  have hle := h.le_tick ((List.sublist_cons_self (BuilderCall.onTick t) _).trans hsub)
  have hlt := lt_periodEnd hb (h.timestamps u (hsub.subset (by simp)))
  rw [hu] at hlt
  exact absurd (hend.trans hle) (not_le.mpr hlt)

/-- What ends a period is a call told of a time after it. -/
theorem Chronological.passed_iff (h : Chronological calls) (hb : 0 < b.periodSecs) :
    b.Passed calls start ↔ (∃ t, .onTick t ∈ calls ∧ b.periodStart t.ts = start) ∧ b.CompletedBy calls start := by
  constructor
  · rintro ⟨t, c, hsub, rfl, hends⟩
    exact ⟨⟨t, hsub.subset List.mem_cons_self, rfl⟩, c, hsub.subset (by simp), h.end_le hb hsub hends⟩
  · rintro ⟨⟨t, ht, rfl⟩, c, hc, hend⟩
    have hlt : t.ts < c.time := (lt_periodEnd hb (h.timestamps t ht)).trans_le hend
    refine ⟨t, c, h.tick_first ht hc hlt, rfl, ?_⟩
    match c, hend with
    | .onTick u, hend =>
      have hu := lt_periodEnd hb (h.timestamps u hc)
      exact fun heq => absurd (hend.trans_lt hu) (by rw [heq]; exact lt_irrefl _)
    | .tryComplete now bestBid bestAsk, hend => exact ⟨hend.trans (h.representable _ hc), hend⟩

theorem Chronological.before (h : Chronological (calls ++ [c])) : Chronological calls where
  ordered := (List.pairwise_append.mp h.ordered).1
  timestamps := fun t ht => h.timestamps t (List.mem_append_left _ ht)
  sizes := fun t ht => h.sizes t (List.mem_append_left _ ht)
  representable := fun c hc => h.representable c (List.mem_append_left _ hc)

/-- The open candle is later than all that are finished. -/
theorem Chronological.finished_lt (h : Chronological calls) (hb : 0 < b.periodSecs) {o : OpenCandle}
    (ho : (b.track calls).2 = some o) (hfinished : start ∈ b.finishedStarts calls) : start < o.start := by
  have hunfinished := (fresh (h.not_reopens hb)).unfinished o ho
  have htracks := b.tracks calls
  obtain ⟨u, hu, hopen⟩ := htracks.opened o ho
  obtain ⟨⟨t, ht, rfl⟩, -⟩ := (h.passed_iff hb).mp ((htracks.passed _).mp hfinished)
  have hne : b.periodStart t.ts ≠ b.periodStart u.ts := by
    rw [hopen]
    rintro heq
    exact hunfinished (heq ▸ hfinished)
  rw [← hopen] at hunfinished ⊢
  by_contra hge
  have hlt : u.ts < t.ts := by
    by_contra hle
    have huend := lt_periodEnd hb (h.timestamps u hu)
    have hend : u.ts < b.periodStart t.ts + seconds b.periodSecs :=
      huend.trans_le (add_le_add_left (not_lt.mp hge) _)
    exact hne (periodStart_of_lt hb (h.timestamps t ht) (not_lt.mp hle) hend).symm
  exact hunfinished ((htracks.passed _).mpr ⟨u, .onTick t, h.tick_first hu ht hlt, rfl, hne⟩)

end

/-! ## The builder and the batch -/

section

variable {b : CandleBuilder} {calls : List BuilderCall}

theorem toU64_roundF64 {total : Decimal} (h : 0 ≤ total) :
    ((toU64 (roundF64 total)).toUInt64.toNat : Int) = min (roundF64 total) maxU64 := by
  have hnonneg : 0 ≤ roundF64 total := by
    rw [roundF64, if_pos h]
    exact Int.floor_nonneg.mpr (by linarith)
  have hword : toU64 (roundF64 total) < UInt64.size := lt_of_le_of_lt (min_le_right _ maxU64) (by decide)
  rw [Nat.toUInt64_eq, UInt64.toNat_ofNat_of_lt' hword, toU64_intCast]
  omega

theorem aggregates_of_finishes {o : OpenCandle} {candle : Candle} {start : DateTime} {ticks : List BuilderTick}
    (ho : OpenCandle.ofTicks start ticks = some o) (hsizes : ∀ t ∈ ticks, 0 ≤ t.size) (h : b.Finishes o candle) :
    Aggregates ticks candle := by
  match ticks with
  | [] => exact absurd ho.symm (Option.some_ne_none o)
  | t :: ts =>
    rw [OpenCandle.ofTicks, OpenCandle.foldl_add] at ho
    obtain rfl := Option.some.inj ho
    have htotal : 0 ≤ ((t :: ts).map BuilderTick.size).sum :=
      List.sum_nonneg fun x hx => by
        obtain ⟨u, hu, rfl⟩ := List.mem_map.mp hx
        exact hsizes u hu
    refine ⟨?_, ?_, ?_, ?_, _, h.volume, toU64_roundF64 htotal⟩
    · rw [h.opening]
      rfl
    · rw [h.high]
      rfl
    · rw [h.low]
      rfl
    · rw [h.close, List.getLast?_cons]
      cases ts.getLast? <;> rfl

theorem exists_finished {os : List OpenCandle} {candles : List Candle} {candle : Candle}
    (h : List.Forall₂ b.Finishes os candles) (hcandle : candle ∈ candles) : ∃ o ∈ os, b.Finishes o candle := by
  induction h with
  | nil => exact absurd hcandle List.not_mem_nil
  | cons h _ ih =>
    rcases List.mem_cons.mp hcandle with rfl | hcandle
    · exact ⟨_, List.mem_cons_self, h⟩
    · obtain ⟨o, ho, hfinish⟩ := ih hcandle
      exact ⟨o, List.mem_cons_of_mem _ ho, hfinish⟩

theorem mem_ticksIn {t : BuilderTick} {start : DateTime} :
    t ∈ b.ticksIn calls start ↔ .onTick t ∈ calls ∧ b.periodStart t.ts = start := by
  rw [ticksIn, List.mem_filterMap]
  constructor
  · rintro ⟨c, hc, ht⟩
    cases c with
    | onTick u =>
      obtain ⟨hperiod, heq⟩ := Option.ite_none_right_eq_some.mp ht
      obtain rfl := Option.some.inj heq
      exact ⟨hc, hperiod⟩
    | tryComplete now bestBid bestAsk => exact absurd ht.symm (Option.some_ne_none t)
  · rintro ⟨hc, hperiod⟩
    exact ⟨.onTick t, hc, if_pos hperiod⟩

theorem ascending_finishedStarts (h : Chronological calls) (hb : 0 < b.periodSecs) :
    (b.finishedStarts calls).Pairwise (· < ·) := by
  induction calls using List.reverseRecOn with
  | nil => exact .nil
  | append_singleton calls c ih =>
    rw [finishedStarts_concat, List.pairwise_append]
    refine ⟨ih h.before, ?_, fun start hstart last hlast => ?_⟩
    · cases (b.finished c (b.track calls).2).map OpenCandle.start <;> simp
    · obtain ⟨o, ho, rfl⟩ := Option.map_eq_some_iff.mp (mem_finished.mp hlast).1
      exact h.before.finished_lt hb ho hstart

theorem batched {pair : Pair} {exchange : Exchange} {timeframe : String}
    (hnew : new pair exchange timeframe = some b) (h : Chronological calls) :
    ∃ candles b', b.run calls = some (candles, b') ∧ b.Batched calls candles b' := by
  have hb := new_periodSecs hnew
  obtain ⟨candles, b', hrun, hfinishes, -, hshows⟩ := run_spec (new_shows hnew) calls
  have htracks := b.tracks calls
  have hfresh := fresh (h.not_reopens hb)
  have htimes : candles.map Candle.timestamp = b.finishedStarts calls := map_timestamp hfinishes
  have hmem : ∀ start, (∃ candle ∈ candles, candle.timestamp = start) ↔ start ∈ b.finishedStarts calls := by
    intro start
    rw [← htimes, List.mem_map]
  have hopen : b'.currentPeriodStart = (b.track calls).2.map OpenCandle.start := by
    cases ho : (b.track calls).2 with
    | none => rw [ho] at hshows; exact hshows
    | some o => rw [ho] at hshows; exact hshows.1
  refine ⟨candles, b', hrun, ?_, fun start => ?_, fun candle hcandle => ?_, fun t ht => ?_, fun start hstart => ?_⟩
  · rw [← List.pairwise_map (f := Candle.timestamp), htimes]
    exact ascending_finishedStarts h hb
  · rw [hmem, htracks.passed, h.passed_iff hb]
  · obtain ⟨o, ho, hfinish⟩ := exists_finished hfinishes hcandle
    rw [hfinish.timestamp]
    exact aggregates_of_finishes (hfresh.finished o ho) (fun t ht => h.sizes t (mem_ticksIn.mp ht).1) hfinish
  · rw [hmem, hopen]
    constructor
    · intro hfinished heq
      obtain ⟨o, ho, hstart⟩ := Option.map_eq_some_iff.mp heq
      exact hfresh.unfinished o ho (hstart ▸ hfinished)
    · exact fun hne => (htracks.owned t ht).resolve_right hne
  · obtain ⟨o, ho, rfl⟩ := Option.map_eq_some_iff.mp (hopen.symm.trans hstart)
    rw [hfresh.opened o ho, ← ho]
    exact hshows

end

/-! ## A minute and the next -/

/-- One minute and the first tick of the next. -/
def sampleMinute : List BuilderCall :=
  [sampleTick 150 30, sampleTick 152 59, .tryComplete (seconds 60) none none, sampleTick 149 61]

theorem sampleMinute_batched : ∃ candles b', sampleBuilder.run sampleMinute = some (candles, b') ∧
    sampleBuilder.Batched sampleMinute candles b' := by
  refine batched (show new "USD_JPY" .gmoFx "M1" = some sampleBuilder from rfl) ⟨?_, ?_, ?_, ?_⟩
  · simp [sampleMinute, sampleTick, BuilderCall.time, seconds]
  · simp [sampleMinute, sampleTick, seconds]
  · simp [sampleMinute, sampleTick]
  · simp [sampleMinute, sampleTick, BuilderCall.time, seconds, maxUtc]

end CandleBuilder

end AutoTrader
