import AutoTrader.Market.CandleBuilder

/-!
# Periods that are opened once

A late tick, or one after the clock has finished its period, opens a finished period again, and its candle is
returned a second time. `Reopens` says of which sequences of calls this is so, in terms of the calls alone;
`returned_once_iff` says that it happens to no others. `Fresh` is what the open candle and the finished ones are
made of in all sequences where it does not happen.
-/

namespace AutoTrader

/-- A sequence with a last element in a list with one. -/
theorem concat_sublist_concat {α : Type} {ks l : List α} {x c : α} :
    (ks ++ [x]).Sublist (l ++ [c]) ↔ (ks ++ [x]).Sublist l ∨ ks.Sublist l ∧ x = c := by
  rw [← List.reverse_sublist, List.reverse_concat, List.reverse_concat, List.cons_sublist_cons', ← List.reverse_concat,
    List.reverse_sublist, List.reverse_sublist]
  exact or_congr Iff.rfl and_comm

/-- Where the last element of a sublist stands. -/
theorem exists_first_of_concat_sublist {α : Type} {ks : List α} {x : α} {l : List α}
    (h : (ks ++ [x]).Sublist l) : ∃ p, ks.Sublist p ∧ p ++ [x] <+: l := by
  induction l using List.reverseRecOn with
  | nil => exact absurd (List.sublist_nil.mp h) (by simp)
  | append_singleton l c ih =>
    rcases concat_sublist_concat.mp h with hbefore | ⟨hks, rfl⟩
    · obtain ⟨p, hp, hfirst⟩ := ih hbefore
      exact ⟨p, hp, hfirst.trans (List.prefix_append l [c])⟩
    · exact ⟨l, hks, List.prefix_rfl⟩

theorem pair_sublist_concat {α : Type} {x y c : α} {l : List α} :
    [x, y].Sublist (l ++ [c]) ↔ [x, y].Sublist l ∨ x ∈ l ∧ y = c := by
  rw [← List.singleton_sublist (a := x)]
  exact @concat_sublist_concat α [x] l y c

theorem triple_sublist_concat {α : Type} {x y z c : α} {l : List α} :
    [x, y, z].Sublist (l ++ [c]) ↔ [x, y, z].Sublist l ∨ [x, y].Sublist l ∧ z = c :=
  @concat_sublist_concat α [x, y] l z c

namespace CandleBuilder

/-- The call ends the period of an earlier tick. -/
def Passed (b : CandleBuilder) (calls : List BuilderCall) (start : DateTime) : Prop :=
  ∃ t c, [BuilderCall.onTick t, c].Sublist calls ∧ b.periodStart t.ts = start ∧ b.Ends start c

/-- A tick falls into a period of which an earlier tick was followed by the end. -/
def Reopens (b : CandleBuilder) (calls : List BuilderCall) : Prop :=
  ∃ t c u, [BuilderCall.onTick t, c, BuilderCall.onTick u].Sublist calls ∧ b.periodStart u.ts = b.periodStart t.ts ∧
    b.Ends (b.periodStart t.ts) c

section

variable {b : CandleBuilder} {calls : List BuilderCall} {c : BuilderCall} {start : DateTime}

theorem passed_concat : b.Passed (calls ++ [c]) start ↔
    b.Passed calls start ∨ (∃ t, .onTick t ∈ calls ∧ b.periodStart t.ts = start) ∧ b.Ends start c := by
  constructor
  · rintro ⟨t, c', hsub, ht, hends⟩
    rcases pair_sublist_concat.mp hsub with hbefore | ⟨hmem, rfl⟩
    · exact .inl ⟨t, c', hbefore, ht, hends⟩
    · exact .inr ⟨⟨t, hmem, ht⟩, hends⟩
  · rintro (⟨t, c', hsub, ht, hends⟩ | ⟨⟨t, hmem, ht⟩, hends⟩)
    · exact ⟨t, c', pair_sublist_concat.mpr (.inl hsub), ht, hends⟩
    · exact ⟨t, c, pair_sublist_concat.mpr (.inr ⟨hmem, rfl⟩), ht, hends⟩

theorem reopens_concat : b.Reopens (calls ++ [c]) ↔
    b.Reopens calls ∨ ∃ u, c = .onTick u ∧ b.Passed calls (b.periodStart u.ts) := by
  constructor
  · rintro ⟨t, e, u, hsub, hu, hends⟩
    rcases triple_sublist_concat.mp hsub with hbefore | ⟨hpair, rfl⟩
    · exact .inl ⟨t, e, u, hbefore, hu, hends⟩
    · exact .inr ⟨u, rfl, t, e, hpair, hu.symm, hu.symm ▸ hends⟩
  · rintro (⟨t, e, u, hsub, hu, hends⟩ | ⟨u, rfl, t, e, hsub, ht, hends⟩)
    · exact ⟨t, e, u, triple_sublist_concat.mpr (.inl hsub), hu, hends⟩
    · exact ⟨t, e, u, triple_sublist_concat.mpr (.inr ⟨hsub, rfl⟩), ht.symm, ht ▸ hends⟩

/-! ## What the candles are made of -/

/-- The ticks of a period. -/
def ticksIn (b : CandleBuilder) (calls : List BuilderCall) (start : DateTime) : List BuilderTick :=
  calls.filterMap fun
    | .onTick t => if b.periodStart t.ts = start then some t else none
    | .tryComplete _ _ _ => none

/-- The starts of the finished candles. -/
def finishedStarts (b : CandleBuilder) (calls : List BuilderCall) : List DateTime :=
  (b.track calls).1.map OpenCandle.start

/-- How the candles of a sequence of calls are related to its ticks. -/
structure Tracks (b : CandleBuilder) (calls : List BuilderCall) : Prop where
  passed : ∀ start, start ∈ b.finishedStarts calls ↔ b.Passed calls start
  owned : ∀ t, .onTick t ∈ calls →
    b.periodStart t.ts ∈ b.finishedStarts calls ∨ (b.track calls).2.map OpenCandle.start = some (b.periodStart t.ts)
  opened : ∀ o, (b.track calls).2 = some o → ∃ t, .onTick t ∈ calls ∧ b.periodStart t.ts = o.start

theorem finishedStarts_concat : b.finishedStarts (calls ++ [c]) =
    b.finishedStarts calls ++ ((b.finished c (b.track calls).2).map OpenCandle.start).toList := by
  rw [finishedStarts, track_concat, trackNext, List.map_append, ← finishedStarts]
  cases b.finished c (b.track calls).2 <;> rfl

theorem start_openAfter_onTick (t : BuilderTick) (o : Option OpenCandle) :
    (b.openAfter (.onTick t) o).map OpenCandle.start = some (b.periodStart t.ts) := by
  cases o with
  | none => rfl
  | some o =>
    by_cases hends : b.Ends o.start (.onTick t)
    · rw [openAfter, if_pos hends]
      rfl
    · rw [openAfter, if_neg hends]
      exact congrArg some (not_not.mp hends).symm

theorem start_openAfter_goesOn {o : OpenCandle} (h : ¬b.Ends o.start c) :
    (b.openAfter c (some o)).map OpenCandle.start = some o.start := by
  cases c <;> rw [openAfter, if_neg h] <;> rfl

theorem openAfter_tryComplete {now : DateTime} {bestBid bestAsk : Option Decimal} {o : Option OpenCandle}
    {o' : OpenCandle} (h : b.openAfter (.tryComplete now bestBid bestAsk) o = some o') :
    o = some o' ∧ ¬b.Ends o'.start (.tryComplete now bestBid bestAsk) := by
  cases o with
  | none => exact absurd h.symm (Option.some_ne_none o')
  | some o =>
    rw [openAfter] at h
    obtain ⟨hends, heq⟩ := Option.ite_none_left_eq_some.mp h
    obtain rfl := Option.some.inj heq
    exact ⟨rfl, hends⟩

/-- A tick opens a period, or it goes into the candle that is open. -/
theorem openAfter_onTick {u : BuilderTick} {o : Option OpenCandle} {o' : OpenCandle}
    (h : b.openAfter (.onTick u) o = some o') :
    o' = .first (b.periodStart u.ts) u ∧ o.map OpenCandle.start ≠ some (b.periodStart u.ts) ∨
      ∃ o₁, o = some o₁ ∧ b.periodStart u.ts = o₁.start ∧ o' = o₁.add u := by
  cases o with
  | none => exact .inl ⟨(Option.some.inj h).symm, (Option.some_ne_none _).symm⟩
  | some o =>
    rw [openAfter] at h
    by_cases hends : b.Ends o.start (.onTick u)
    · rw [if_pos hends] at h
      exact .inl ⟨(Option.some.inj h).symm, fun heq => hends (Option.some.inj heq).symm⟩
    · rw [if_neg hends] at h
      exact .inr ⟨o, rfl, not_not.mp hends, (Option.some.inj h).symm⟩

theorem finished_eq_some {o : Option OpenCandle} {o' : OpenCandle} :
    b.finished c o = some o' ↔ o = some o' ∧ b.Ends o'.start c := by
  cases o with
  | none => simp [finished]
  | some o =>
    rw [finished, Option.ite_none_right_eq_some, Option.some_inj]
    constructor
    · rintro ⟨hends, rfl⟩
      exact ⟨rfl, hends⟩
    · rintro ⟨rfl, hends⟩
      exact ⟨hends, rfl⟩

theorem mem_finished {o : Option OpenCandle} :
    start ∈ ((b.finished c o).map OpenCandle.start).toList ↔ o.map OpenCandle.start = some start ∧ b.Ends start c := by
  rw [Option.mem_toList, Option.map_eq_some_iff, Option.map_eq_some_iff]
  constructor
  · rintro ⟨o', hfinished, rfl⟩
    obtain ⟨ho, hends⟩ := finished_eq_some.mp hfinished
    exact ⟨⟨o', ho, rfl⟩, hends⟩
  · rintro ⟨⟨o', ho, rfl⟩, hends⟩
    exact ⟨o', finished_eq_some.mpr ⟨ho, hends⟩, rfl⟩

theorem Tracks.next (h : b.Tracks calls) : b.Tracks (calls ++ [c]) where
  passed start := by
    rw [passed_concat, finishedStarts_concat, List.mem_append, h.passed, mem_finished]
    constructor
    · rintro (hpassed | ⟨hopen, hends⟩)
      · exact .inl hpassed
      · obtain ⟨o, ho, rfl⟩ := Option.map_eq_some_iff.mp hopen
        exact .inr ⟨h.opened o ho, hends⟩
    · rintro (hpassed | ⟨⟨t, ht, rfl⟩, hends⟩)
      · exact .inl hpassed
      · exact (h.owned t ht).imp (h.passed _).mp fun hopen => ⟨hopen, hends⟩
  owned t ht := by
    rw [finishedStarts_concat, List.mem_append, mem_finished, track_concat]
    rcases List.mem_append.mp ht with ht | ht
    · rcases h.owned t ht with hfinished | hopen
      · exact .inl (.inl hfinished)
      · by_cases hends : b.Ends (b.periodStart t.ts) c
        · exact .inl (.inr ⟨hopen, hends⟩)
        · obtain ⟨o, ho, hstart⟩ := Option.map_eq_some_iff.mp hopen
          refine .inr ?_
          rw [trackNext, ho, ← hstart]
          exact start_openAfter_goesOn (hstart ▸ hends)
    · obtain rfl := List.mem_singleton.mp ht
      exact .inr (start_openAfter_onTick t _)
  opened o ho := by
    rw [track_concat] at ho
    have hstart := congrArg (Option.map OpenCandle.start) ho
    rcases c with t | ⟨now, bestBid, bestAsk⟩
    · refine ⟨t, List.mem_append_right _ (List.mem_singleton_self _), ?_⟩
      exact Option.some.inj ((start_openAfter_onTick t _).symm.trans hstart)
    · obtain ⟨t, ht, hperiod⟩ := h.opened o (openAfter_tryComplete ho).1
      exact ⟨t, List.mem_append_left _ ht, hperiod⟩

theorem tracks (b : CandleBuilder) (calls : List BuilderCall) : b.Tracks calls := by
  induction calls using List.reverseRecOn with
  | nil =>
    refine ⟨fun start => ⟨fun h => absurd h List.not_mem_nil, ?_⟩, fun t h => absurd h List.not_mem_nil, fun o h => ?_⟩
    · rintro ⟨t, c, hsub, -⟩
      exact absurd (List.sublist_nil.mp hsub) (List.cons_ne_nil _ _)
    · exact absurd h.symm (Option.some_ne_none o)
  | append_singleton calls c ih => exact ih.next

/-- What is known of the candles while no period is opened again. -/
structure Fresh (b : CandleBuilder) (calls : List BuilderCall) : Prop where
  nodup : (b.finishedStarts calls).Nodup
  unfinished : ∀ o, (b.track calls).2 = some o → o.start ∉ b.finishedStarts calls
  finished : ∀ o ∈ (b.track calls).1, OpenCandle.ofTicks o.start (b.ticksIn calls o.start) = some o
  opened : ∀ o, (b.track calls).2 = some o → OpenCandle.ofTicks o.start (b.ticksIn calls o.start) = some o

theorem ticksIn_concat : b.ticksIn (calls ++ [c]) start = b.ticksIn calls start ++ b.ticksIn [c] start :=
  List.filterMap_append

theorem ticksIn_of_ends (h : b.Ends start c) : b.ticksIn [c] start = [] := by
  cases c with
  | onTick t => simp [ticksIn, show b.periodStart t.ts ≠ start from h]
  | tryComplete now bestBid bestAsk => rfl

theorem ticksIn_eq_nil (h : ∀ t, .onTick t ∈ calls → b.periodStart t.ts ≠ start) : b.ticksIn calls start = [] := by
  rw [ticksIn, List.filterMap_eq_nil_iff]
  intro c hc
  cases c with
  | onTick t => exact if_neg (h t hc)
  | tryComplete now bestBid bestAsk => rfl

theorem ticksIn_tick {u : BuilderTick} (h : b.periodStart u.ts = start) : b.ticksIn [.onTick u] start = [u] := by
  simp [ticksIn, h]

theorem ticksIn_eq_nil_of_passed (h : b.Passed calls start)
    (hc : ∀ u, c = .onTick u → ¬b.Passed calls (b.periodStart u.ts)) : b.ticksIn [c] start = [] := by
  refine ticksIn_eq_nil fun t ht hperiod => ?_
  exact hc t (List.mem_singleton.mp ht).symm (hperiod ▸ h)

/-- Whatever the next call is, it returns no candle twice. -/
theorem Fresh.nodup_concat (h : b.Fresh calls) : (b.finishedStarts (calls ++ [c])).Nodup := by
  rw [finishedStarts_concat, List.nodup_append]
  refine ⟨h.nodup, ?_, ?_⟩
  · cases (b.finished c (b.track calls).2).map OpenCandle.start <;> simp
  · rintro start hmem _ hlast rfl
    obtain ⟨o, ho, rfl⟩ := Option.map_eq_some_iff.mp (mem_finished.mp hlast).1
    exact h.unfinished o ho hmem

theorem Fresh.next (h : b.Fresh calls) (hc : ∀ u, c = .onTick u → ¬b.Passed calls (b.periodStart u.ts)) :
    b.Fresh (calls ++ [c]) := by
  have htracks := b.tracks calls
  have hunfinished : ∀ o, (b.track (calls ++ [c])).2 = some o → o.start ∉ b.finishedStarts (calls ++ [c]) := by
    intro o ho
    rw [track_concat] at ho
    rw [finishedStarts_concat, List.mem_append, mem_finished]
    rcases c with u | ⟨now, bestBid, bestAsk⟩
    · have hstart := Option.some.inj
        ((congrArg (Option.map OpenCandle.start) ho).symm.trans (start_openAfter_onTick u _))
      rw [hstart]
      rintro (hmem | ⟨-, hends⟩)
      · exact hc u rfl ((htracks.passed _).mp hmem)
      · exact hends rfl
    · obtain ⟨hopen, hends⟩ := openAfter_tryComplete ho
      rintro (hmem | ⟨-, h'⟩)
      · exact h.unfinished o hopen hmem
      · exact hends h'
  refine ⟨h.nodup_concat, hunfinished, ?_, ?_⟩
  · intro o ho
    rw [track_concat, trackNext, List.mem_append, Option.mem_toList] at ho
    rw [ticksIn_concat]
    rcases ho with hmem | hlast
    · rw [ticksIn_eq_nil_of_passed ((htracks.passed _).mp (List.mem_map_of_mem hmem)) hc, List.append_nil]
      exact h.finished o hmem
    · obtain ⟨hopen, hends⟩ := finished_eq_some.mp hlast
      rw [ticksIn_of_ends hends, List.append_nil]
      exact h.opened o hopen
  · intro o ho
    rw [track_concat] at ho
    rw [ticksIn_concat]
    rcases c with u | ⟨now, bestBid, bestAsk⟩
    · rcases openAfter_onTick ho with ⟨rfl, hother⟩ | ⟨o₁, hopen, hsame, rfl⟩
      · have hnone : b.ticksIn calls (b.periodStart u.ts) = [] := by
          refine ticksIn_eq_nil fun t ht hperiod => ?_
          rcases htracks.owned t ht with hmem | hopen
          · exact hc u rfl ((htracks.passed _).mp (hperiod ▸ hmem))
          · exact hother (hperiod ▸ hopen)
        show OpenCandle.ofTicks _ (b.ticksIn calls (b.periodStart u.ts) ++ b.ticksIn _ (b.periodStart u.ts)) = _
        rw [hnone, ticksIn_tick rfl]
        rfl
      · show OpenCandle.ofTicks _ (b.ticksIn calls o₁.start ++ b.ticksIn _ o₁.start) = _
        rw [ticksIn_tick hsame]
        exact OpenCandle.ofTicks_concat (h.opened o₁ hopen) u
    · rw [show b.ticksIn [.tryComplete now bestBid bestAsk] o.start = [] from rfl, List.append_nil]
      exact h.opened o (openAfter_tryComplete ho).1

theorem fresh (h : ¬b.Reopens calls) : b.Fresh calls := by
  induction calls using List.reverseRecOn with
  | nil =>
    refine ⟨List.nodup_nil, fun o ho => ?_, fun o ho => absurd ho List.not_mem_nil, fun o ho => ?_⟩ <;>
      exact absurd ho.symm (Option.some_ne_none o)
  | append_singleton calls c ih =>
    rw [reopens_concat, not_or] at h
    exact (ih h.1).next fun u hu hpassed => h.2 ⟨u, hu, hpassed⟩

end

/-! ## What is returned -/

section

variable {b : CandleBuilder} {calls : List BuilderCall}

/-- The calls run, and no two candles they return have the same timestamp. -/
def ReturnsOnce (b : CandleBuilder) (calls : List BuilderCall) : Prop :=
  ∃ candles b', b.run calls = some (candles, b') ∧ (candles.map Candle.timestamp).Nodup

theorem map_timestamp {os : List OpenCandle} {candles : List Candle} (h : List.Forall₂ b.Finishes os candles) :
    candles.map Candle.timestamp = os.map OpenCandle.start := by
  induction h with
  | nil => rfl
  | cons h _ ih => rw [List.map_cons, List.map_cons, ih, h.timestamp]

theorem returnsOnce_iff (hnew : b.Shows none) : b.ReturnsOnce calls ↔ (b.finishedStarts calls).Nodup := by
  obtain ⟨candles, b', hrun, hfinishes, -⟩ := run_spec hnew calls
  rw [finishedStarts, ← map_timestamp hfinishes]
  constructor
  · rintro ⟨candles', b'', hrun', hnodup⟩
    obtain ⟨rfl, -⟩ := Prod.mk.inj (Option.some.inj (hrun.symm.trans hrun'))
    exact hnodup
  · exact fun hnodup => ⟨candles, b', hrun, hnodup⟩

theorem new_periodSecs {pair : Pair} {exchange : Exchange} {timeframe : String}
    (h : new pair exchange timeframe = some b) : 0 < b.periodSecs := by
  obtain ⟨periodSecs, hsecs, rfl⟩ := Option.map_eq_some_iff.mp h
  show 0 < periodSecs
  unfold timeframeSecs at hsecs
  split at hsecs
  · obtain rfl := Option.some.inj hsecs
    decide
  · obtain rfl := Option.some.inj hsecs
    decide
  · obtain rfl := Option.some.inj hsecs
    decide
  · exact absurd hsecs.symm (Option.some_ne_none _)

/-- There is always a tick of another period. -/
theorem exists_other (h : 0 < b.periodSecs) (start : DateTime) : ∃ t : BuilderTick, b.periodStart t.ts ≠ start := by
  have hzero : b.periodStart 0 = 0 := by
    simp [periodStart, DateTime.timestamp, seconds]
  have hone : b.periodStart (seconds b.periodSecs) = seconds b.periodSecs := by
    simp [periodStart, DateTime.timestamp, seconds, Int.mul_fdiv_cancel]
  by_cases hstart : start = 0
  · refine ⟨⟨0, 0, seconds b.periodSecs, none, none⟩, fun heq => ?_⟩
    have hsecs : b.periodSecs * 1000000 = 0 := (hone.symm.trans heq).trans hstart
    omega
  · exact ⟨⟨0, 0, 0, none, none⟩, fun heq => hstart (heq.symm.trans hzero)⟩

theorem returned_once_iff {pair : Pair} {exchange : Exchange} {timeframe : String}
    (hnew : new pair exchange timeframe = some b) (calls : List BuilderCall) :
    (∀ p c, p <+: calls → b.ReturnsOnce (p ++ [c])) ↔ ¬b.Reopens calls := by
  constructor
  · rintro honce ⟨t, e, u, hsub, hu, hends⟩
    obtain ⟨p, hpair, hfirst⟩ := exists_first_of_concat_sublist
      (show ([BuilderCall.onTick t, e] ++ [BuilderCall.onTick u]).Sublist calls from hsub)
    obtain ⟨w, hw⟩ := exists_other (new_periodSecs hnew) (b.periodStart u.ts)
    have hnodup := (returnsOnce_iff (new_shows hnew)).mp (honce _ (.onTick w) hfirst)
    have hbefore : b.periodStart u.ts ∈ b.finishedStarts (p ++ [.onTick u]) := by
      rw [finishedStarts_concat]
      exact List.mem_append_left _ (((b.tracks p).passed _).mpr ⟨t, e, hpair, hu.symm, hu ▸ hends⟩)
    rw [finishedStarts_concat, List.nodup_append] at hnodup
    refine hnodup.2.2 _ hbefore _ (mem_finished.mpr ⟨?_, hw⟩) rfl
    rw [track_concat]
    exact start_openAfter_onTick u _
  · intro h p c hp
    rw [returnsOnce_iff (new_shows hnew)]
    exact (fresh fun ⟨t, e, u, hsub, hu⟩ => h ⟨t, e, u, hsub.trans hp.sublist, hu⟩).nodup_concat

end

/-! ## A late tick -/

/-- A builder of one-minute candles. -/
def sampleBuilder : CandleBuilder where
  pair := "USD_JPY"
  exchange := .gmoFx
  timeframe := "M1"
  periodSecs := 60
  currentPeriodStart := none
  «open» := none
  high := none
  low := none
  close := none
  volume := 0
  lastBestBid := none
  lastBestAsk := none

/-- A tick of size one. -/
def sampleTick (price : Decimal) (secs : Int) : BuilderCall := .onTick ⟨price, 1, seconds secs, none, none⟩

/-- The clock finishes the first minute, and then a tick of its last second arrives. -/
def sampleLateTick : List BuilderCall :=
  [sampleTick 150 30, .tryComplete (seconds 60) none none, sampleTick 151 59, .tryComplete (seconds 61) none none]

theorem sampleLateTick_twice : ¬sampleBuilder.ReturnsOnce sampleLateTick ∧
    (sampleBuilder.run sampleLateTick).map (fun r => r.1.map fun c => (c.timestamp, c.open)) =
      some [(0, 150), (0, 151)] := by
  refine ⟨?_, by decide +kernel⟩
  rintro ⟨candles, b', hrun, hnodup⟩
  have htimes : (sampleBuilder.run sampleLateTick).map (fun r => r.1.map Candle.timestamp) = some [0, 0] := by
    decide +kernel
  rw [hrun] at htimes
  have htimes : candles.map Candle.timestamp = [0, 0] := Option.some.inj htimes
  rw [htimes] at hnodup
  exact absurd hnodup (by decide)

theorem sampleTwoMinutes_once :
    sampleBuilder.ReturnsOnce ([sampleTick 150 30, sampleTick 151 60] ++ [sampleTick 152 120]) := by
  refine (returned_once_iff (show new "USD_JPY" .gmoFx "M1" = some sampleBuilder from rfl) _).mpr ?_ _ _
    List.prefix_rfl
  rintro ⟨t, e, u, hsub, -⟩
  exact absurd hsub.length_le (show ¬3 ≤ 2 by decide)

end CandleBuilder

end AutoTrader
