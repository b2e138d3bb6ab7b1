import AutoTrader.Sim.LegMatches
import AutoTrader.Sim.Path
import AutoTrader.Sim.Segments

/-!
# The evaluation of a run

The outcome of a run and the benchmarks of the same bars fit together: `evaluate` reads nothing that does not
exist, and its counts and sums are those of the bars and of the trades (`Consistent`). `evaluate_consistent_iff` has
this just when no leg has `2 ^ 32` flat or opposite bars, which are counted in 32 bits, and no profit of a segment or
of all trades leaves the 64 bits in which it is summed; `longLeg_lost` is a leg that is too long.
-/

namespace AutoTrader.Sim

open Lib

variable {E F : Type}

/-- The one panic left: a bar whose time has no text. -/
def Untold (formatEpochSecsRfc3339 : Int → Option String) (evalBars : List Bar) (e : EvalPanic) : Prop :=
  ∃ bar ∈ evalBars, formatEpochSecsRfc3339 bar.openTime = none ∧ e = .unreachable bar.openTime

/-- The counts of every leg. -/
def legEvals (bm : Benchmark) (positions : List Int) : List LegEval :=
  bm.legs.map fun leg => evaluateLeg leg positions

/-- The order of the missed legs, without ties. -/
def LegEval.Precedes (x y : LegEval) : Prop :=
  y.leg.realizableMilli < x.leg.realizableMilli ∨
    (y.leg.realizableMilli = x.leg.realizableMilli ∧ x.leg.a < y.leg.a)

/-- What an evaluation computes, by the parts that it is made of. -/
structure Consistent (f : Floats F) (formatEpochSecsRfc3339 : Int → Option String) (evalBars : List Bar)
    (outcome : SimOutcome) (benchmarks : List Benchmark) : Prop where
  total : FailsOnly (Untold formatEpochSecsRfc3339 evalBars)
    (evaluate f formatEpochSecsRfc3339 evalBars outcome benchmarks)
  boundaries : (segmentBoundaries evalBars.length).length = 7 ∧
    (segmentBoundaries evalBars.length).head? = some 0 ∧
    (segmentBoundaries evalBars.length).getLast? = some evalBars.length ∧
    (segmentBoundaries evalBars.length).IsChain (· ≤ ·)
  one_segment : ∀ trade ∈ outcome.trades, ∃ lo hi,
    (segmentBoundaries evalBars.length)[segmentIndex trade.exitIdx (segmentBoundaries evalBars.length)]? = some lo ∧
    (segmentBoundaries evalBars.length)[segmentIndex trade.exitIdx (segmentBoundaries evalBars.length) + 1]? =
      some hi ∧ lo ≤ trade.exitIdx ∧ trade.exitIdx < hi
  segments : ∃ segmentsMilli, computeSegmentsMilli evalBars.length outcome.trades = .ok segmentsMilli ∧
    segmentsMilli.length = 6 ∧ ExactSegments evalBars.length outcome.trades segmentsMilli
  legs : ∀ bm ∈ benchmarks, ∀ e ∈ legEvals bm outcome.positions,
    e.matched + e.flatBars + e.oppositeBars = e.leg.b - e.leg.a
  matched : ∀ bm ∈ benchmarks, ((legEvals bm outcome.positions).map (·.matched)).sum =
    (List.range bm.labels.length).countP (correctAt bm.labels outcome.positions)
  missed : ∀ bm ∈ benchmarks, ∃ ordered : List LegEval,
    ordered.Perm ((legEvals bm outcome.positions).filter fun e => decide (e.matched * 2 < e.leg.b - e.leg.a)) ∧
    ordered.Pairwise LegEval.Precedes ∧ missedCandidates (legEvals bm outcome.positions) = ordered.take 20
  reported : ∀ metrics, evaluate f formatEpochSecsRfc3339 evalBars outcome benchmarks = .ok metrics →
    (∃ milli, computeSegmentsMilli evalBars.length outcome.trades = .ok milli ∧
      metrics.segments = milli.map f.milliToPips) ∧
    metrics.totalPips = f.milliToPips (milliSum (outcome.trades.map (·.pnlMilli))) ∧
    List.Forall₂ (fun bm entry => ((missedCandidates (legEvals bm outcome.positions)).mapM
      (toMissedLeg f formatEpochSecsRfc3339 evalBars)) = .ok entry.2.missedLegs) benchmarks metrics.byTheta

/-! ## Reads -/

section

variable {f : Floats F} {formatEpochSecsRfc3339 : Int → Option String} {evalBars : List Bar}

theorem readAt_of_lt {α : Type} {l : List α} {i : Nat} (h : i < l.length) : readAt l i = .ok l[i] := by
  unfold readAt
  rw [List.getElem?_eq_getElem h]

theorem failsOnly_rfc3339 {bar : Bar} (h : bar ∈ evalBars) :
    FailsOnly (Untold formatEpochSecsRfc3339 evalBars) (rfc3339 formatEpochSecsRfc3339 bar.openTime) := by
  intro e he
  unfold rfc3339 at he
  rcases hs : formatEpochSecsRfc3339 bar.openTime with _ | s
  · rw [hs] at he
    exact ⟨bar, h, hs, (Except.error.inj he).symm⟩
  · rw [hs] at he
    cases he

theorem failsOnly_toMissedLeg {e : LegEval} (ha : e.leg.a + 1 < evalBars.length) (hb : e.leg.b < evalBars.length) :
    FailsOnly (Untold formatEpochSecsRfc3339 evalBars) (toMissedLeg f formatEpochSecsRfc3339 evalBars e) := by
  unfold toMissedLeg
  rw [readAt_of_lt ha, readAt_of_lt hb]
  refine (failsOnly_ok _).bind fun barStart hs => ?_
  refine (failsOnly_rfc3339 ?_).bind fun startTime _ => ?_
  · rw [← Except.ok.inj hs]
    exact List.getElem_mem ha
  · refine (failsOnly_ok _).bind fun barEnd he => ?_
    refine (failsOnly_rfc3339 ?_).bind fun endTime _ => failsOnly_ok _
    rw [← Except.ok.inj he]
    exact List.getElem_mem hb

theorem failsOnly_meanLag {P : EvalPanic → Prop} {evals : List LegEval}
    (h : ∀ e ∈ evals, e.leg.a < evalBars.length ∧ ∀ idx, e.firstMatchIdx = some idx → idx < evalBars.length) :
    FailsOnly P (meanLag f evalBars evals) := by
  unfold meanLag
  dsimp only
  split
  · exact failsOnly_ok _
  · refine (failsOnly_mapM fun entry hentry => ?_).bind fun pips _ => failsOnly_ok _
    obtain ⟨e, he, hmap⟩ := List.mem_filterMap.mp hentry
    obtain ⟨idx, hidx, rfl⟩ := Option.map_eq_some_iff.mp hmap
    obtain ⟨ha, hfirst⟩ := h e he
    unfold lagPips
    rw [readAt_of_lt (hfirst idx hidx), readAt_of_lt ha]
    exact failsOnly_ok _

/-! ## One benchmark -/

section

variable {theta : Int} {turns : List Turn} {bm : Benchmark} {positions : List Int}

/-- The evaluation of a leg of the benchmark. -/
theorem exists_leg_of_mem {e : LegEval} (he : e ∈ legEvals bm positions) :
    ∃ leg ∈ bm.legs, evaluateLeg leg positions = e ∧ e.leg = leg := by
  obtain ⟨leg, hmem, rfl⟩ := List.mem_map.mp he
  exact ⟨leg, hmem, rfl, (evaluateLeg_counts leg positions).1⟩

theorem mem_of_mem_missedCandidates {evals : List LegEval} {e : LegEval} (he : e ∈ missedCandidates evals) :
    e ∈ evals := by
  have hin := (List.perm_insertionSort LegEval.before _).mem_iff.mp (List.mem_of_mem_take he)
  exact (List.mem_filter.mp hin).1

theorem failsOnly_missedLegs (hz : Zigzag evalBars theta turns bm) :
    FailsOnly (Untold formatEpochSecsRfc3339 evalBars)
      (missedLegs f formatEpochSecsRfc3339 evalBars (legEvals bm positions)) := by
  refine failsOnly_mapM fun e he => ?_
  obtain ⟨leg, hmem, -, rfl⟩ := exists_leg_of_mem (mem_of_mem_missedCandidates he)
  obtain ⟨-, hab, hb⟩ := hz.leg hmem
  exact failsOnly_toMissedLeg (by omega) (by omega)

theorem failsOnly_thetaMetrics (hz : Zigzag evalBars theta turns bm) (hlen : positions.length = evalBars.length)
    (totalMilli : Int64) :
    FailsOnly (Untold formatEpochSecsRfc3339 evalBars)
      (thetaMetrics f formatEpochSecsRfc3339 evalBars positions bm totalMilli) := by
  have hcorrect : ∀ i ∈ List.range bm.labels.length, i < bm.labels.length ∧ i < positions.length := by
    intro i hi
    have hi := List.mem_range.mp hi
    rw [hlen, ← hz.labelled]
    exact ⟨hi, hi⟩
  unfold thetaMetrics
  refine FailsOnly.bind ?_ fun ratio _ => ?_
  · unfold correctSide
    dsimp only
    split
    · exact failsOnly_ok none
    · rw [countCorrect_eq _ _ _ hcorrect]
      exact failsOnly_ok _
  · refine FailsOnly.bind ?_ fun lag _ => ?_
    · refine failsOnly_meanLag fun e he => ?_
      obtain ⟨leg, hmem, heq, hleg⟩ := exists_leg_of_mem he
      obtain ⟨-, hab, hb⟩ := hz.leg hmem
      refine ⟨by rw [hleg]; omega, fun idx hidx => ?_⟩
      rw [← hlen]
      exact (evaluateLeg_counts leg positions).2.2.2.2.2 idx (heq ▸ hidx)
    · exact (failsOnly_missedLegs hz).bind fun missed _ => failsOnly_ok _

instance : Std.Total LegEval.before where
  total x y := by
    unfold LegEval.before
    rcases Int.lt_trichotomy x.leg.realizableMilli.toInt y.leg.realizableMilli.toInt with h | h | h
    · exact .inr (.inl (Int64.lt_iff_toInt_lt.mpr h))
    · have heq := Int64.toInt_inj.mp h
      rcases Nat.le_total x.leg.a y.leg.a with hle | hle
      · exact .inl (.inr ⟨heq.symm, hle⟩)
      · exact .inr (.inr ⟨heq, hle⟩)
    · exact .inl (.inl (Int64.lt_iff_toInt_lt.mpr h))

instance : IsTrans LegEval LegEval.before where
  trans x y z hxy hyz := by
    unfold LegEval.before at *
    simp only [Int64.lt_iff_toInt_lt, ← Int64.toInt_inj] at *
    omega

/-- The missed legs are ordered without ties, as no two legs begin at the same bar. -/
theorem missedCandidates_spec (hz : Zigzag evalBars theta turns bm) :
    ∃ ordered : List LegEval,
      ordered.Perm ((legEvals bm positions).filter fun e => decide (e.matched * 2 < e.leg.b - e.leg.a)) ∧
        ordered.Pairwise LegEval.Precedes ∧ missedCandidates (legEvals bm positions) = ordered.take 20 := by
  have hfilter : ((legEvals bm positions).filter fun e => decide (e.matched * 2 < e.total)) =
      (legEvals bm positions).filter fun e => decide (e.matched * 2 < e.leg.b - e.leg.a) := by
    refine List.filter_congr fun e he => ?_
    obtain ⟨leg, hmem, rfl, hleg⟩ := exists_leg_of_mem he
    obtain ⟨-, htotal, -⟩ := evaluateLeg_counts leg positions
    have hab := (hz.leg hmem).2.1
    rw [hleg, htotal]
    congr 2
    omega
  have hperm := List.perm_insertionSort LegEval.before
    ((legEvals bm positions).filter fun e => decide (e.matched * 2 < e.total))
  refine ⟨_, hfilter ▸ hperm, ?_, rfl⟩
  have hsorted := List.pairwise_insertionSort LegEval.before
    ((legEvals bm positions).filter fun e => decide (e.matched * 2 < e.total))
  have hstarts : ((legEvals bm positions).filter fun e => decide (e.matched * 2 < e.total)).Pairwise
      fun x y => x.leg.a ≠ y.leg.a := by
    refine List.Pairwise.filter _ (List.pairwise_map.mpr (hz.starts.imp fun {x y} hlt => ?_))
    rw [(evaluateLeg_counts x positions).1, (evaluateLeg_counts y positions).1]
    exact Nat.ne_of_lt hlt
  refine (hsorted.and (hperm.symm.pairwise hstarts fun h => h.symm)).imp fun {x y} ⟨hbefore, hne⟩ => ?_
  rcases hbefore with hlt | ⟨heq, hle⟩
  · exact .inl hlt
  · exact .inr ⟨heq, lt_of_le_of_ne hle hne⟩

/-- The counts of a leg add up if none of them wraps around. -/
theorem counts_iff (hz : Zigzag evalBars theta turns bm) (hlen : positions.length = evalBars.length) {leg : Leg}
    (hmem : leg ∈ bm.legs) :
    (evaluateLeg leg positions).matched + (evaluateLeg leg positions).flatBars +
        (evaluateLeg leg positions).oppositeBars = leg.b - leg.a ↔
      leg.flatCount positions < 2 ^ 32 ∧ leg.oppositeCount positions < 2 ^ 32 := by
  obtain ⟨-, -, hmatched, hflat, hopposite, -⟩ := evaluateLeg_counts leg positions
  have hb := (hz.leg hmem).2.2
  have hb' : leg.b < positions.length := by omega
  have hsum := leg.counts_eq hb'
  rw [hmatched, hflat, hopposite]
  omega

theorem sum_legEvals (hz : Zigzag evalBars theta turns bm) (hlen : positions.length = evalBars.length) :
    ((legEvals bm positions).map (·.matched)).sum =
      (List.range bm.labels.length).countP (correctAt bm.labels positions) := by
  rw [← sum_matched hz hlen, legEvals, List.map_map]
  congr 1
  refine List.map_congr_left fun leg _ => ?_
  exact (evaluateLeg_counts leg positions).2.2.1

end

/-! ## The whole evaluation -/

theorem boundaries_consecutive (n : Nat) :
    (segmentBoundaries n).length = 7 ∧ (segmentBoundaries n).head? = some 0 ∧
      (segmentBoundaries n).getLast? = some n ∧ (segmentBoundaries n).IsChain (· ≤ ·) := by
  rw [segmentBoundaries_eq]
  refine ⟨rfl, rfl, rfl, ?_⟩
  simp only [List.isChain_cons_cons, List.isChain_singleton, and_true]
  omega

section

variable {outcome : SimOutcome} {benchmarks : List Benchmark}

theorem failsOnly_evaluate (hlen : outcome.positions.length = evalBars.length)
    (hz : ∀ bm ∈ benchmarks, ∃ theta turns, Zigzag evalBars theta turns bm) :
    FailsOnly (Untold formatEpochSecsRfc3339 evalBars)
      (evaluate f formatEpochSecsRfc3339 evalBars outcome benchmarks) := by
  obtain ⟨milli, hmilli, -⟩ := computeSegmentsMilli_eq evalBars.length outcome.trades
  unfold evaluate
  dsimp only
  rw [hmilli]
  refine (failsOnly_ok milli).bind fun segments _ => ?_
  refine (failsOnly_mapM fun bm hbm => ?_).bind fun byTheta _ => failsOnly_ok _
  obtain ⟨theta, turns, hz⟩ := hz bm hbm
  exact (failsOnly_thetaMetrics hz hlen _).bind fun metrics _ => failsOnly_ok _

theorem thetaMetrics_missed {bm : Benchmark} {positions : List Int} {totalMilli : Int64} {metrics : ThetaMetrics F}
    (h : thetaMetrics f formatEpochSecsRfc3339 evalBars positions bm totalMilli = .ok metrics) :
    (missedCandidates (legEvals bm positions)).mapM (toMissedLeg f formatEpochSecsRfc3339 evalBars) =
      .ok metrics.missedLegs := by
  unfold thetaMetrics at h
  obtain ⟨ratio, -, h⟩ := bind_eq_ok.mp h
  obtain ⟨lag, -, h⟩ := bind_eq_ok.mp h
  obtain ⟨missed, hmissed, h⟩ := bind_eq_ok.mp h
  rw [← Except.ok.inj h]
  exact hmissed

theorem evaluate_reported {metrics : Metrics F}
    (h : evaluate f formatEpochSecsRfc3339 evalBars outcome benchmarks = .ok metrics) :
    (∃ milli, computeSegmentsMilli evalBars.length outcome.trades = .ok milli ∧
      metrics.segments = milli.map f.milliToPips) ∧
    metrics.totalPips = f.milliToPips (milliSum (outcome.trades.map (·.pnlMilli))) ∧
    List.Forall₂ (fun bm entry => ((missedCandidates (legEvals bm outcome.positions)).mapM
      (toMissedLeg f formatEpochSecsRfc3339 evalBars)) = .ok entry.2.missedLegs) benchmarks metrics.byTheta := by
  unfold evaluate at h
  obtain ⟨milli, hmilli, h⟩ := bind_eq_ok.mp h
  obtain ⟨byTheta, hby, h⟩ := bind_eq_ok.mp h
  rw [← Except.ok.inj h]
  refine ⟨⟨milli, hmilli, rfl⟩, rfl, (mapM_eq_ok.mp hby).imp fun bm entry hentry => ?_⟩
  obtain ⟨theta, htheta, hentry⟩ := bind_eq_ok.mp hentry
  rw [← Except.ok.inj hentry]
  exact thetaMetrics_missed htheta

end

/-- An evaluation is consistent just when nothing that it counts or sums wraps around. -/
theorem evaluate_consistent_iff (f : Floats F) (formatEpochSecsRfc3339 : Int → Option String) {d : Dataset F}
    {decider : Decider E} {cfg : SimConfig} {given : List BarState} {outcome : SimOutcome}
    {benchmarks : List Benchmark} (h : simulateRun d decider cfg = (given, .ok outcome))
    (hok : outcome.status = .ok)
    (hb : ∀ bm ∈ benchmarks, ∃ thetaPips : Int64, 1 ≤ thetaPips.toInt ∧ compute d.evalBars thetaPips = some bm) :
    Consistent f formatEpochSecsRfc3339 d.evalBars outcome benchmarks ↔
      (∀ bm ∈ benchmarks, ∀ leg ∈ bm.legs,
        leg.flatCount outcome.positions < 2 ^ 32 ∧ leg.oppositeCount outcome.positions < 2 ^ 32) ∧
      ProfitsFit d.evalBars.length outcome.trades := by
  obtain ⟨hlen, hexits⟩ := exits_of_run h hok
  have hz : ∀ bm ∈ benchmarks, ∃ theta turns, Zigzag d.evalBars theta turns bm := by
    intro bm hbm
    obtain ⟨thetaPips, h1, hc⟩ := hb bm hbm
    exact ⟨_, _, zigzag_of_compute h1 hc⟩
  obtain ⟨segmentsMilli, hsegments, hsix, -⟩ := computeSegmentsMilli_eq d.evalBars.length outcome.trades
  constructor
  · intro hcon
    obtain ⟨computed, hcomputed, -, hexact⟩ := hcon.segments
    refine ⟨fun bm hbm leg hmem => ?_, (computeSegmentsMilli_exact hcomputed).mp hexact⟩
    obtain ⟨theta, turns, hz⟩ := hz bm hbm
    have hleg := (evaluateLeg_counts leg outcome.positions).1
    have hsum := hcon.legs bm hbm (evaluateLeg leg outcome.positions) (List.mem_map.mpr ⟨leg, hmem, rfl⟩)
    rw [hleg] at hsum
    exact (counts_iff hz hlen hmem).mp hsum
  · rintro ⟨hcounts, hfit⟩
    refine ⟨failsOnly_evaluate hlen hz, boundaries_consecutive _, fun trade htr => segmentIndex_spec (hexits trade htr),
      ⟨segmentsMilli, hsegments, hsix, (computeSegmentsMilli_exact hsegments).mpr hfit⟩,
      fun bm hbm e he => ?_, fun bm hbm => ?_, fun bm hbm => ?_,
      fun metrics hm => evaluate_reported hm⟩
    · obtain ⟨theta, turns, hz⟩ := hz bm hbm
      obtain ⟨leg, hmem, rfl, hleg⟩ := exists_leg_of_mem he
      rw [hleg]
      exact (counts_iff hz hlen hmem).mpr (hcounts bm hbm leg hmem)
    · obtain ⟨theta, turns, hz⟩ := hz bm hbm
      exact sum_legEvals hz hlen
    · obtain ⟨theta, turns, hz⟩ := hz bm hbm
      exact missedCandidates_spec hz

end

/-- Rationals for the floats. -/
def sampleFloats : Floats Rat := ⟨fun v => v, (· + ·), (· / ·)⟩

/-- The times of the sample bars. -/
def sampleRfc3339 (openTime : Int) : Option String :=
  if openTime = 300 then some "1970-01-01T00:05:00Z"
  else if openTime = 600 then some "1970-01-01T00:10:00Z"
  else none

/-- Bars with one leg. -/
def sampleDataset : Dataset Rat := .ofBars (fun v => (v : Rat) / 2000) sampleCloses 0

/-- An outcome that holds the leg. -/
def sampleHeld : SimOutcome := ⟨.ok, [⟨1, 1, 3, 110, 120, 10, .endOfData⟩], [0, 1, 1, 1]⟩

theorem sampleHeld_consistent :
    Consistent sampleFloats sampleRfc3339 sampleCloses sampleHeld [⟨1, [⟨0, 2, 1, 30, 10⟩], 30, 10, [0, 1, 1, 0]⟩] := by
  have hrun : simulateRun sampleDataset alwaysLong ⟨1⟩ =
      ([⟨0, 0, 0, 0⟩, ⟨1, 1, 110, 0⟩, ⟨2, 1, 110, 1⟩, ⟨3, 1, 110, 2⟩], .ok sampleHeld) := by
    rfl
  have hb : ∀ bm ∈ [(⟨1, [⟨0, 2, 1, 30, 10⟩], 30, 10, [0, 1, 1, 0]⟩ : Benchmark)], ∃ thetaPips : Int64,
      1 ≤ thetaPips.toInt ∧ compute sampleDataset.evalBars thetaPips = some bm := by
    intro bm hbm
    rw [List.mem_singleton.mp hbm]
    exact ⟨1, by decide, by decide⟩
  have hfit : ProfitsFit sampleDataset.evalBars.length sampleHeld.trades := by
    refine ⟨?_, ?_⟩ <;> decide
  exact (evaluate_consistent_iff sampleFloats sampleRfc3339 hrun rfl hb).mpr ⟨by decide, hfit⟩

/-! ## A leg that is too long to count -/

/-- A decider that never trades. -/
def alwaysFlat : Decider Unit := fun _ => .ok 0

/-- Without signals there are no positions. -/
theorem alwaysFlat_run (d : Dataset F) (cfg : SimConfig) : ∃ given outcome,
    simulateRun d alwaysFlat cfg = (given, .ok outcome) ∧ outcome.status = .ok ∧ ∀ p ∈ outcome.positions, p = 0 := by
  have hends : RunEnds (E := Unit)
      (fun _ s => s.held.position = 0 ∧ (∀ signal, s.pendingSignal = some signal → signal = 0) ∧
        ∀ p ∈ s.positions, p = 0)
      (fun _ s => s.held.position = 0 ∧ ∀ p ∈ s.positions, p = 0) d.evalBars
      (runBars alwaysFlat (stopOffset cfg) d.evalStart d.evalBars.length d.evalBars 0 .init) := by
    refine runBars_rule ?_ ?_ _ 0 .init rfl ?_ (Nat.zero_le _)
    · intro t bar s _ ⟨hflat, hsig, hpos⟩
      have hopened : (s.opened t bar).1.position = 0 := by
        unfold EngineState.opened
        rcases hp : s.pendingSignal with _ | signal
        · exact hflat
        · have heq : signal = s.held.position := (hsig signal hp).trans hflat.symm
          dsimp only
          rw [applySignalPendingFromPreviousBar, if_pos heq]
          exact hflat
      have hheld : (s.atBar (stopOffset cfg) d.evalStart t bar).held.position = 0 := by
        rw [atBar_held, applyProtectiveStop, if_pos hopened]
        exact hopened
      refine ⟨hheld, fun p hp => ?_⟩
      rw [atBar_positions] at hp
      rcases List.mem_append.mp hp with hp | hp
      · exact hpos p hp
      · rw [List.mem_singleton.mp hp]
        exact hheld
    · intro t s signal _ ⟨hflat, hpos⟩ hans _ _
      refine ⟨hflat, fun signal' hsig => ?_, hpos⟩
      dsimp only at hsig
      split at hsig
      · exact (Option.some.inj hsig).symm.trans (Except.ok.inj hans).symm
      · exact absurd hsig.symm (Option.some_ne_none signal')
    · exact ⟨rfl, fun signal hsig => absurd hsig.symm (Option.some_ne_none signal),
        fun p hp => absurd hp List.not_mem_nil⟩
  have hok := runBars_ok alwaysFlat (fun _ => ⟨0, rfl, by decide, by decide⟩) (stopOffset cfg) d.evalStart
    d.evalBars.length d.evalBars 0 .init
  rcases hrun : runBars alwaysFlat (stopOffset cfg) d.evalStart d.evalBars.length d.evalBars 0 .init with ⟨s, status⟩
  rw [hrun] at hends hok
  obtain rfl : status = .ok .ok := hok
  exact ⟨s.given, ⟨.ok, closeAtPeriodEnd s.held d.evalBars s.trades, s.positions⟩, by simp only [simulateRun, hrun],
    rfl, hends.2.2⟩

/-- After `n` bars at one price, one bar at twice the price and one back at the first price. -/
def longLegBars (n : Nat) : List Bar :=
  flatBars n ++ [.flat (300 * (n : Int)) 200 200, .flat (300 * ((n : Int) + 1)) 100 100]

theorem extractFrom_append (theta : Int) (bars later : List Bar) (t : Nat) (s : Extraction) :
    extractFrom theta (bars ++ later) t s =
      extractFrom theta later (t + bars.length) (extractFrom theta bars t s) := by
  induction bars generalizing t s with
  | nil => rfl
  | cons bar bars ih =>
    rw [List.cons_append, extractFrom, extractFrom, ih, List.length_cons]
    congr 1
    omega

/-- Bars that all close alike show no turn. -/
theorem extractFrom_calm {theta c : Int} (htheta : 0 < theta) (bars : List Bar)
    (hc : ∀ bar ∈ bars, bar.mid2Close = c) (t : Nat) :
    extractFrom theta bars t (.init c) = .init c := by
  induction bars generalizing t with
  | nil => rfl
  | cons bar bars ih =>
    have hstep : (Extraction.init c).step theta t c = .init c := by
      have hwiden : (Extraction.init c).widen t c = .init c := by
        rw [widen_eq]
        simp [Extraction.init]
      have hnot : ¬theta ≤ c - c := by omega
      show (if theta ≤ c - ((Extraction.init c).widen t c).loVal then _
        else if theta ≤ ((Extraction.init c).widen t c).hiVal - c then _ else _) = _
      rw [hwiden]
      exact (if_neg hnot).trans (if_neg hnot)
    rw [extractFrom, hc bar (List.mem_cons_self ..), hstep]
    exact ih (fun b hb => hc b (List.mem_cons_of_mem _ hb)) (t + 1)

theorem extractFrom_peak (t : Nat) (x y : Int) :
    (extractFrom 20 [.flat x 200 200, .flat y 100 100] t (.init 200)).turns = [⟨0, .low⟩, ⟨t, .high⟩] := by
  have hpeak : (Bar.flat x 200 200).mid2Close = 400 := rfl
  have hback : (Bar.flat y 100 100).mid2Close = 200 := rfl
  rw [extractFrom, extractFrom, extractFrom, hpeak, hback]
  rfl

theorem extractTurns_longLeg (n : Nat) :
    extractTurns (longLegBars (n + 1)) 20 = [⟨0, .low⟩, ⟨n + 1, .high⟩] := by
  obtain ⟨rest, hrest, hlen, hclose⟩ : ∃ rest, flatBars (n + 1) = .flat 0 100 100 :: rest ∧ rest.length = n ∧
      ∀ bar ∈ rest, bar.mid2Close = 200 := by
    refine ⟨(List.range n).map fun i : Nat => .flat (300 * ((i + 1 : Nat) : Int)) 100 100, ?_, by simp, ?_⟩
    · rw [flatBars, List.range_succ_eq_map, List.map_cons, List.map_map]
      rfl
    · intro bar hbar
      obtain ⟨i, -, rfl⟩ := List.mem_map.mp hbar
      rfl
  have hturns : extractTurns (longLegBars (n + 1)) 20 =
      (extractFrom 20 (rest ++ [.flat (300 * ((n + 1 : Nat) : Int)) 200 200,
        .flat (300 * (((n + 1 : Nat) : Int) + 1)) 100 100]) 1 (.init 200)).turns := by
    unfold longLegBars
    rw [hrest]
    rfl
  rw [hturns, extractFrom_append, extractFrom_calm (by decide) rest hclose, hlen, Nat.add_comm 1 n]
  exact extractFrom_peak (n + 1) _ _

/-- Bars whose leg is longer than a counter. -/
def longLegDataset : Dataset Rat := .ofBars (fun v => (v : Rat) / 2000) (longLegBars (2 ^ 32)) 0

/-- The leg has `2 ^ 32` flat bars, which are counted as none. -/
theorem longLeg_lost : ∃ given outcome bm, simulateRun longLegDataset alwaysFlat ⟨1⟩ = (given, .ok outcome) ∧
    outcome.status = .ok ∧ compute longLegDataset.evalBars 1 = some bm ∧
    ¬Consistent sampleFloats sampleRfc3339 longLegDataset.evalBars outcome [bm] := by
  obtain ⟨given, outcome, hrun, hok, hflat⟩ := alwaysFlat_run longLegDataset ⟨1⟩
  have hbars : longLegDataset.evalBars = longLegBars (2 ^ 32) := rfl
  obtain ⟨n, hn⟩ : ∃ n, 2 ^ 32 = n + 1 := ⟨2 ^ 32 - 1, by omega⟩
  have hturns : extractTurns longLegDataset.evalBars 20 = [⟨0, .low⟩, ⟨2 ^ 32, .high⟩] := by
    rw [hbars, hn]
    exact extractTurns_longLeg n
  obtain ⟨bm, hc, hz⟩ : ∃ bm, compute longLegDataset.evalBars 1 = some bm ∧
      Zigzag longLegDataset.evalBars 20 [⟨0, .low⟩, ⟨2 ^ 32, .high⟩] bm := by
    have h1 : 1 ≤ (1 : Int64).toInt := by decide
    have htheta : convertThetaPipsToMid2SaturatingSoAnOverflowingThetaYieldsNoLegs 1 = 20 := by decide
    obtain ⟨bm, hc⟩ := exists_compute longLegDataset.evalBars h1
    have hz := zigzag_of_compute h1 hc
    rw [htheta, hturns] at hz
    exact ⟨bm, hc, hz⟩
  refine ⟨given, outcome, bm, hrun, hok, hc, fun hcon => ?_⟩
  obtain ⟨leg, hleg, ha, hb, hd⟩ := hz.legs 0 _ _ rfl rfl
  have hmem := List.mem_of_getElem? hleg
  have hlen := (exits_of_run hrun hok).1
  have hsum := hcon.legs bm (List.mem_singleton.mpr rfl) (evaluateLeg leg outcome.positions)
    (List.mem_map.mpr ⟨leg, hmem, rfl⟩)
  rw [(evaluateLeg_counts leg outcome.positions).1] at hsum
  have hcount := ((counts_iff hz hlen hmem).mp hsum).1
  have hall : leg.flatCount outcome.positions = (leg.held outcome.positions).length := by
    refine List.countP_eq_length.mpr fun p hp => ?_
    have hz : p = 0 := hflat p (List.mem_of_mem_take (List.mem_of_mem_drop hp))
    rw [hz, Leg.matches, hd]
    rfl
  rw [hall, leg.length_held (by rw [hlen]; exact Nat.lt_of_succ_lt (hz.leg hmem).2.2), ha, hb] at hcount
  exact absurd hcount (Nat.lt_irrefl _)

end AutoTrader.Sim
