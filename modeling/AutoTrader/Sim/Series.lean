import AutoTrader.Lib.Fallible
import AutoTrader.Lib.Partition
import AutoTrader.Sim.Bars
import AutoTrader.Sim.Types

/-!
# Series and datasets

A dataset is a window of bars: some to warm up on, and those of the evaluation period (`Dataset.new`). It
also holds the bars aggregated to each timeframe (`aggregate`), and for each bar how many aggregated ones
have ended with it (`completedCounts`). The conversion of a price to a float is a function `toYen`, and
`dateOf` is the date of an instant, if it is one that can be represented.
-/

namespace AutoTrader.Sim

variable {F : Type}

/-- The length of a timeframe's bars. -/
def Tf.secs : Tf → Int
  | m5 => m5Secs
  | m15 => 900
  | h1 => 3600
  | h4 => 14400

/-- The columns of a timeframe. -/
structure TfSeries (F : Type) where
  opening : List F
  high : List F
  low : List F
  close : List F
  endTime : List Int

/-! ## Aggregation -/

/-- A bucket that bars are added to. -/
structure Bucket where
  bucket : Int
  openMid2 : Int
  highMid2 : Int
  lowMid2 : Int
  closeMid2 : Int
  deriving DecidableEq, Repr

/-- `div_euclid`, for a positive divisor. -/
def bucketOf (tf : Tf) (b : Bar) : Int := b.openTime / tf.secs

/-- The bucket that a bar opens. -/
def Bucket.first (tf : Tf) (b : Bar) : Bucket := ⟨bucketOf tf b, b.mid2Open, b.mid2High, b.mid2Low, b.mid2Close⟩

/-- A bar enters its bucket. -/
def Bucket.add (c : Bucket) (b : Bar) : Bucket :=
  { c with highMid2 := max c.highMid2 b.mid2High, lowMid2 := min c.lowMid2 b.mid2Low, closeMid2 := b.mid2Close }

/-- The buckets from an open one on: the inner loop adds bars to it, and the outer one begins the next. -/
def bucketsFrom (tf : Tf) (c : Bucket) : List Bar → List Bucket
  | [] => [c]
  | b :: bars =>
    if bucketOf tf b = c.bucket then bucketsFrom tf (c.add b) bars
    else c :: bucketsFrom tf (.first tf b) bars

/-- The buckets of the bars. -/
def buckets (tf : Tf) : List Bar → List Bucket
  | [] => []
  | b :: bars => bucketsFrom tf (.first tf b) bars

/-- The time at which a bucket ends. -/
def Bucket.endTime (tf : Tf) (c : Bucket) : Int := (c.bucket + 1) * tf.secs

/-- The columns of the aggregated bars. -/
def aggregate (toYen : Int → F) (bars : List Bar) (tf : Tf) : TfSeries F where
  opening := (buckets tf bars).map fun c => toYen c.openMid2
  high := (buckets tf bars).map fun c => toYen c.highMid2
  low := (buckets tf bars).map fun c => toYen c.lowMid2
  close := (buckets tf bars).map fun c => toYen c.closeMid2
  endTime := (buckets tf bars).map (Bucket.endTime tf)

/-- A bucket that ends by the end of the bar is complete. -/
def bucketEndTimeHasArrived (endTime barOpenTime : Int) : Bool := decide (endTime ≤ barOpenTime + m5Secs)

/-- The pointer moves on over the end times that have arrived. -/
def advance (barOpenTime : Int) : List Int → Nat
  | [] => 0
  | e :: ends => if bucketEndTimeHasArrived e barOpenTime then advance barOpenTime ends + 1 else 0

/-- The counts from a pointer on. -/
def completedFrom (endTime : List Int) (ptr : Nat) : List Bar → List Nat
  | [] => []
  | b :: bars =>
    let ptr := ptr + advance b.openTime (endTime.drop ptr)
    ptr :: completedFrom endTime ptr bars

/-- How many buckets are complete at each bar. -/
def completedCounts (bars : List Bar) (endTime : List Int) : List Nat := completedFrom endTime 0 bars

/-! ## Datasets -/

/-- The length of a day. -/
def secsPerDay : Int := 86400

/-- The first day with `warmupBars` bars before it. -/
def earliestFrom (allBars : List Bar) (warmupBars : Nat) : Option Int :=
  if warmupBars = 0 then allBars.head?.map fun first => first.openTime / secsPerDay * secsPerDay
  else allBars[warmupBars - 1]?.map fun last => (last.openTime / secsPerDay + 1) * secsPerDay

/-- The bars of a run with the columns of every timeframe. -/
structure Dataset (F : Type) where
  bars : List Bar
  evalStart : Nat
  series : Tf → TfSeries F
  completed : Tf → List Nat

/-- The bars that are evaluated. -/
def Dataset.evalBars (d : Dataset F) : List Bar := d.bars.drop d.evalStart

/-- The dataset of a window of bars. -/
def Dataset.ofBars (toYen : Int → F) (bars : List Bar) (evalStart : Nat) : Dataset F where
  bars := bars
  evalStart := evalStart
  series := aggregate toYen bars
  completed := fun tf => completedCounts bars (aggregate toYen bars tf).endTime

/-- The instant of an epoch second, where there is one. -/
def epochSecsToDatetime (dateOf : Int → Option String) (secs : Int) (context : String) : Except SimError String :=
  match dateOf secs with
  | some date => .ok date
  | none => .error (.other [.lit "invalid epoch seconds: ", .arg (toString secs),
      .lit " is not a representable UTC instant (context=", .arg context, .lit ")"])

/-- What a period that begins too early is told. -/
def earliestDetail (dateOf : Int → Option String) (allBars : List Bar) (warmupBars : Nat) : Error :=
  match earliestFrom allBars warmupBars with
  | some ts => [.lit "earliest possible `from` is ", .arg ((dateOf ts).getD (toString ts)), .lit " (UTC)"]
  | none => [.lit "not enough historical bars in total to satisfy warmup_bars=", .arg (toString warmupBars),
      .lit ": only ", .arg (toString allBars.length), .lit " bars loaded"]

/-- The data of a run over `[from, to)` with the bars before it. -/
def Dataset.new (toYen : Int → F) (dateOf : Int → Option String) (allBars : List Bar) («from» «to» : Int)
    (warmupBars : Nat) : Except SimError (Dataset F) := do
  let _ ← epochSecsToDatetime dateOf «from» "from"
  Lib.refuseIf («to» = -2 ^ 63)
    (.args [.lit "invalid to: ", .arg (toString «to»), .lit " has no predecessor in i64 (epoch seconds)"])
  let _ ← epochSecsToDatetime dateOf («to» - 1) "to"
  let evalStartInAll := Lib.partitionPoint (fun b => decide (b.openTime < «from»)) allBars
  let evalEndInAll := Lib.partitionPoint (fun b => decide (b.openTime < «to»)) allBars
  Lib.refuseIf (evalEndInAll ≤ evalStartInAll)
    (.args [.lit "invalid evaluation period: no bars in [", .arg (toString «from»), .lit ", ",
      .arg (toString «to»), .lit ") (UTC epoch seconds)"])
  Lib.refuseIf (evalStartInAll < warmupBars)
    (.args ([.lit "invalid from: need ", .arg (toString warmupBars), .lit " warmup bars before it, only ",
      .arg (toString evalStartInAll), .lit " available; "] ++ earliestDetail dateOf allBars warmupBars))
  let windowStart := evalStartInAll - warmupBars
  let bars := (allBars.take evalEndInAll).drop windowStart
  return .ofBars toYen bars warmupBars

end AutoTrader.Sim
