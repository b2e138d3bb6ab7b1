import AutoTrader.Lib.Fallible
import AutoTrader.Sim.Benchmark
import AutoTrader.Sim.Engine
import Mathlib.Data.List.Sort

/-!
# Metrics of a run

`evaluate` computes the metrics of an outcome over the evaluation bars and compares it with benchmarks. It panics
when it reads a bar or a position that does not exist, and when the time of a missed leg has no text. The float
operations are parameters (`Floats`), and `rfc3339` is the text of an instant, if it is one that can be
represented. Counts of flat and opposite bars are `u32`s, which wrap around.
-/

namespace AutoTrader.Sim

variable {F : Type}

/-- Where the evaluation can panic. -/
inductive EvalPanic where
  | outOfRange
  | unreachable (openTime : Int)
  deriving DecidableEq, Repr

/-- The operations on `f64`s; `cast` is that from an integer. -/
structure Floats (F : Type) where
  cast : Int → F
  add : F → F → F
  div : F → F → F

/-- A leg that the run missed. -/
structure MissedLeg (F : Type) where
  startTime : String
  endTime : String
  direction : Int
  realizablePips : F
  flatBars : Nat
  oppositeBars : Nat
  deriving DecidableEq

/-- The metrics against the legs of one theta. -/
structure ThetaMetrics (F : Type) where
  legCount : Nat
  idealPips : F
  realizablePips : F
  captureRate : Option F
  correctSideRatio : Option F
  meanLagBars : Option F
  meanLagPips : Option F
  missedLegs : List (MissedLeg F)
  deriving DecidableEq

/-- The metrics of a run. -/
structure Metrics (F : Type) where
  totalPips : F
  tradeCount : Nat
  winRate : F
  maxDrawdownPips : F
  timeInMarket : F
  protectiveStopCount : Nat
  segments : List F
  /-- The metrics that are put into the map, in the order of the benchmarks. -/
  byTheta : List (String × ThetaMetrics F)
  deriving DecidableEq

/-- An element that the code indexes. -/
def readAt {α : Type} (l : List α) (i : Nat) : Except EvalPanic α :=
  match l[i]? with
  | some x => .ok x
  | none => .error .outOfRange

namespace Floats

variable (f : Floats F)

/-- A price difference in pips. -/
def milliToPips (v : Int64) : F := f.div (f.cast v.toInt) (f.cast pipMilli.toInt)

/-- A difference of doubled middles in pips. -/
def mid2ToPips (v : Int) : F := f.div (f.cast v) (f.cast pipMid2)

/-- The quotient of two counts. -/
def ratio (m n : Nat) : F := f.div (f.cast m) (f.cast n)

end Floats

/-! ## Profit -/

/-- The state of the drawdown loop. -/
structure Drawdown where
  peak : Int64
  cumulative : Int64
  maxDd : Int64

/-- The deepest fall of the running profit below its peak. -/
def maxDrawdown (trades : List SimTrade) : Int64 :=
  (trades.foldl (fun s trade =>
    let cumulative := s.cumulative + trade.pnlMilli
    let peak := max s.peak cumulative
    (⟨peak, cumulative, max s.maxDd (peak - cumulative)⟩ : Drawdown)) ⟨0, 0, 0⟩).maxDd

/-- The sizes of the six parts; the last one has what is left over. -/
def segmentSizes (n : Nat) : List Nat :=
  (List.range 6).map fun i => if i < 5 then n / 6 else n / 6 + n % 6

/-- The first bars of the segments, and the end of the last one. -/
def segmentBoundaries (n : Nat) : List Nat := (segmentSizes n).scanl (· + ·) 0

/-- The windows of two boundaries, from the `i`-th on. -/
def segmentIndexFrom (exitIdx : Nat) : List Nat → Nat → Nat
  | _ :: next :: rest, i => if exitIdx < next then i else segmentIndexFrom exitIdx (next :: rest) (i + 1)
  | _, _ => 5

/-- The segment of a bar. -/
def segmentIndex (exitIdx : Nat) (boundaries : List Nat) : Nat := segmentIndexFrom exitIdx boundaries 0

/-- A trade's profit enters the segment of its exit. -/
def addToSegment (boundaries : List Nat) (segmentsMilli : List Int64) (trade : SimTrade) :
    Except EvalPanic (List Int64) := do
  let idx := segmentIndex trade.exitIdx boundaries
  let milli ← readAt segmentsMilli idx
  return segmentsMilli.set idx (milli + trade.pnlMilli)

/-- The profits of the six segments. -/
def computeSegmentsMilli (n : Nat) (trades : List SimTrade) : Except EvalPanic (List Int64) :=
  trades.foldlM (addToSegment (segmentBoundaries n)) (List.replicate 6 0)

/-! ## Legs -/

/-- What is counted over the bars of a leg. -/
structure LegEval where
  leg : Leg
  matched : Nat
  total : Nat
  flatBars : Nat
  oppositeBars : Nat
  firstMatchIdx : Option Nat
  deriving DecidableEq, Repr

/-- One bar of a leg, at index `i`. -/
def LegEval.count (e : LegEval) (p : Int) (i : Nat) : LegEval :=
  if p = e.leg.direction then
    { e with matched := e.matched + 1, firstMatchIdx := if e.firstMatchIdx.isNone then some i else e.firstMatchIdx }
  else if p = 0 then { e with flatBars := (e.flatBars + 1) % 2 ^ 32 }
  else { e with oppositeBars := (e.oppositeBars + 1) % 2 ^ 32 }

/-- The counts of a leg. -/
def evaluateLeg (leg : Leg) (positions : List Int) : LegEval :=
  let start := leg.a + 1
  let «end» := leg.b
  ((positions.zipIdx.take («end» + 1)).drop start).foldl (fun e entry => e.count entry.1 entry.2)
    ⟨leg, 0, «end» - start + 1, 0, 0, none⟩

/-- The labelled bars at which the position is the label, of those at the indices. -/
def countCorrect (labels positions : List Int) : List Nat → Except EvalPanic Nat
  | [] => .ok 0
  | i :: is => do
    let label ← readAt labels i
    let rest ← countCorrect labels positions is
    if label ≠ 0 then
      let position ← readAt positions i
      return if position = label then rest + 1 else rest
    else return rest

/-- The share of the labelled bars that are correct. -/
def correctSide (f : Floats F) (labels positions : List Int) : Except EvalPanic (Option F) :=
  let labeledCount := (labels.filter fun l => decide (l ≠ 0)).length
  if labeledCount = 0 then .ok none
  else do
    let matched ← countCorrect labels positions (List.range labels.length)
    return some (f.ratio matched labeledCount)

/-- How far the price had gone when the run was first on the side of the leg. -/
def lagPips (f : Floats F) (evalBars : List Bar) (e : LegEval) (idx : Nat) : Except EvalPanic F := do
  let barAt ← readAt evalBars idx
  let barA ← readAt evalBars e.leg.a
  let diff := barAt.mid2Close - barA.mid2Close
  return f.mid2ToPips |diff|

/-- The mean lag of the legs that were matched, in bars and in pips. -/
def meanLag (f : Floats F) (evalBars : List Bar) (legEvals : List LegEval) :
    Except EvalPanic (Option F × Option F) := do
  let lagged := legEvals.filterMap fun e => e.firstMatchIdx.map fun idx => (e, idx)
  if lagged.isEmpty then return (none, none)
  else
    let barsSum := (lagged.map fun entry => entry.2 - (entry.1.leg.a + 1)).sum
    let pips ← lagged.mapM fun entry => lagPips f evalBars entry.1 entry.2
    let pipsSum := pips.foldl f.add (f.cast 0)
    return (some (f.ratio barsSum lagged.length), some (f.div pipsSum (f.cast lagged.length)))

/-- The larger realizable profit first, then the earlier start. -/
def LegEval.before (x y : LegEval) : Prop :=
  y.leg.realizableMilli < x.leg.realizableMilli ∨
    (y.leg.realizableMilli = x.leg.realizableMilli ∧ x.leg.a ≤ y.leg.a)

instance (x y : LegEval) : Decidable (x.before y) := inferInstanceAs (Decidable (_ ∨ _))

/-- The time of a bar as text; the bars of the data have one. -/
def rfc3339 (formatEpochSecsRfc3339 : Int → Option String) (openTime : Int) : Except EvalPanic String :=
  match formatEpochSecsRfc3339 openTime with
  | some s => .ok s
  | none => .error (.unreachable openTime)

/-- A leg that the run missed, with the times of its first and last bar. -/
def toMissedLeg (f : Floats F) (formatEpochSecsRfc3339 : Int → Option String) (evalBars : List Bar) (e : LegEval) :
    Except EvalPanic (MissedLeg F) := do
  let barStart ← readAt evalBars (e.leg.a + 1)
  let startTime ← rfc3339 formatEpochSecsRfc3339 barStart.openTime
  let barEnd ← readAt evalBars e.leg.b
  let endTime ← rfc3339 formatEpochSecsRfc3339 barEnd.openTime
  return ⟨startTime, endTime, e.leg.direction, f.milliToPips e.leg.realizableMilli, e.flatBars, e.oppositeBars⟩

/-- The missed legs that are reported. -/
def missedCandidates (legEvals : List LegEval) : List LegEval :=
  ((legEvals.filter fun e : LegEval => decide (e.matched * 2 < e.total)).insertionSort LegEval.before).take 20

/-- The missed legs that are reported, each with its times. -/
def missedLegs (f : Floats F) (formatEpochSecsRfc3339 : Int → Option String) (evalBars : List Bar)
    (legEvals : List LegEval) : Except EvalPanic (List (MissedLeg F)) :=
  (missedCandidates legEvals).mapM (toMissedLeg f formatEpochSecsRfc3339 evalBars)

/-! ## The metrics -/

/-- The metrics of a run against one theta. -/
def thetaMetrics (f : Floats F) (formatEpochSecsRfc3339 : Int → Option String) (evalBars : List Bar)
    (positions : List Int) (bm : Benchmark) (totalMilli : Int64) : Except EvalPanic (ThetaMetrics F) := do
  let captureRate :=
    if 0 < bm.realizableMilli then some (f.div (f.cast totalMilli.toInt) (f.cast bm.realizableMilli.toInt)) else none
  let correctSideRatio ← correctSide f bm.labels positions
  let legEvals := bm.legs.map fun leg => evaluateLeg leg positions
  let lag ← meanLag f evalBars legEvals
  let missed ← missedLegs f formatEpochSecsRfc3339 evalBars legEvals
  return {
    legCount := bm.legs.length
    idealPips := f.milliToPips bm.idealMilli
    realizablePips := f.milliToPips bm.realizableMilli
    captureRate
    correctSideRatio
    meanLagBars := lag.1
    meanLagPips := lag.2
    missedLegs := missed }

/-- The metrics of a run. -/
def evaluate (f : Floats F) (formatEpochSecsRfc3339 : Int → Option String) (evalBars : List Bar)
    (outcome : SimOutcome) (benchmarks : List Benchmark) : Except EvalPanic (Metrics F) := do
  let trades := outcome.trades
  let positions := outcome.positions
  let totalMilli := milliSum (trades.map (·.pnlMilli))
  let segmentsMilli ← computeSegmentsMilli evalBars.length trades
  let byTheta ← benchmarks.mapM fun bm => do
    let metrics ← thetaMetrics f formatEpochSecsRfc3339 evalBars positions bm totalMilli
    return (toString bm.thetaPips, metrics)
  return {
    totalPips := f.milliToPips totalMilli
    tradeCount := trades.length
    winRate :=
      if trades.length = 0 then f.cast 0
      else f.ratio (trades.filter fun t => decide (0 < t.pnlMilli)).length trades.length
    maxDrawdownPips := f.milliToPips (maxDrawdown trades)
    timeInMarket := f.ratio (positions.filter fun p => decide (p ≠ 0)).length evalBars.length
    protectiveStopCount := (trades.filter fun t => decide (t.reason = .protectiveStop)).length
    segments := segmentsMilli.map f.milliToPips
    byTheta }

end AutoTrader.Sim
