import AutoTrader.Sim.Calc

/-!
# What a script sees

A script asks a `Ctx` about the bar at hand: its scalars, the bars of a timeframe that have completed
(`resolveIndex` counts back from the last one), and the values of indicators at these bars. The indicators that a
run asks for are kept in a set, which is limited.

An index out of range, where the code panics, gives a default here. The cache of the indicators hands out what
`Calc.compute` gives, and its error for a poisoned lock is left out.
-/

namespace AutoTrader.Sim

open Calc (FloatFns)

variable {F : Type}

/-- What a script can ask about at a bar: the data, the bar and the position held. -/
structure Ctx (F : Type) where
  dataset : Dataset F
  t : Nat
  position : Int
  entryPriceMilli : Int64
  barsHeld : Nat

/-- What a script is given; an undefined float is `none`. -/
inductive Answer (F : Type) where
  | unit
  | int (n : Int)
  | float (x : F)
  | map (entries : List (String × Option F))

/-- The functions of other crates: rounding and conversion of a multiplier, and the calendar. -/
structure CtxFns (F : Type) where
  sqrt : F → F
  round : F → F
  toU32 : F → Nat
  dateOf : Int → Option String
  hourOf : Int → Int
  weekdayOf : Int → Int

/-- Asking about a bar can fail, and may add to the indicators that the run has asked for. -/
abbrev Asks := ExceptT Error (StateM (List IndicatorKey))

instance : Inhabited Bar := ⟨.flat 0 0 0⟩

namespace Ctx

variable (fns : CtxFns F) (c : Ctx F)

/-- The bar of the context. -/
def bar : Bar := c.dataset.bars[c.t]!

/-! ## Scalars -/

/-- The end of the M5 bar that opens at `openTime`. -/
def barEndTime (openTime : Int) : Asks Int :=
  if openTime + m5Secs < 2 ^ 63 then return openTime + m5Secs
  else throw [.lit "invalid ctx.time: open_time plus the bar length overflows i64"]

/-- The end of the bar of the context. -/
def endTime : Asks Int := barEndTime c.bar.openTime

/-- The text of an error, whatever its kind. -/
def textOf : SimError → Error
  | .args e => e
  | .invalidScript e => e
  | .other e => e

/-- The instant, if it can be represented. -/
def endTimeToUtc (endTime : Int) : Asks Int :=
  match epochSecsToDatetime fns.dateOf endTime "ctx.time" with
  | .ok _ => return endTime
  | .error e => throw (textOf e)

/-- The hour of the end of the bar. -/
def hour : Asks (Answer F) := do
  let utc ← endTimeToUtc fns (← c.endTime)
  return .int (fns.hourOf utc)

/-- The weekday of the end of the bar. -/
def weekday : Asks (Answer F) := do
  let utc ← endTimeToUtc fns (← c.endTime)
  return .int (fns.weekdayOf utc)

section

variable [IntCast F] [Div F]

/-- A price difference in pips. -/
def milliToPips (v : Int64) : F := ((v.toInt : Int) : F) / ((pipMilli.toInt : Int) : F)

variable [NatCast F]

/-- The profit of the position at the close of the bar, in pips. -/
def unrealizedPips : F :=
  if c.position = 0 then ((0 : Nat) : F)
  else if c.position = 1 then milliToPips (c.bar.bidClose - c.entryPriceMilli)
  else milliToPips (c.entryPriceMilli - c.bar.askClose)

/-- The spread at the close of the bar, in pips. -/
def spreadPips : F := milliToPips (c.bar.askClose - c.bar.bidClose)

/-- The entry price of the position, zero without one. -/
def entryPrice : F :=
  if c.position = 0 then ((0 : Nat) : F) else ((c.entryPriceMilli.toInt : Int) : F) / ((1000 : Nat) : F)

end

/-! ## Arguments -/

/-- The timeframe of a name. -/
def parseTf (tf : String) : Asks Tf :=
  match tf with
  | "M5" => return .m5
  | "M15" => return .m15
  | "H1" => return .h1
  | "H4" => return .h4
  | tf => throw [.lit "unsupported timeframe: \"", .arg tf, .lit "\" (expected M5, M15, H1, or H4)"]

/-- A period is from 1 to 1000. -/
def checkPeriod (period : Int) : Asks Nat :=
  if 1 ≤ period ∧ period ≤ 1000 then return period.toNat
  else throw [.lit "invalid period: must be between 1 and 1000"]

/-- A shift is from 0 to 1000. -/
def checkShift (shift : Int) : Asks Nat :=
  if 0 ≤ shift ∧ shift ≤ 1000 then return shift.toNat
  else throw [.lit "invalid shift: must be between 0 and 1000"]

/-- A multiplier in hundredths, from 0.1 to 10.0. -/
def checkMult [NatCast F] [Mul F] [LE F] [DecidableLE F] (mult : F) : Asks Nat :=
  let multX100 := fns.round (mult * ((100 : Nat) : F))
  if ((10 : Nat) : F) ≤ multX100 ∧ multX100 ≤ ((1000 : Nat) : F) then return fns.toU32 multX100
  else throw [.lit "invalid mult: must round to between 0.1 and 10.0"]

/-- The indicators that one run may ask for. -/
def maxIndicatorKeysPerRun : Nat := 64

/-- An indicator that the run has not asked for counts against the limit. -/
def trackKey (key : IndicatorKey) : Asks Unit := do
  let keys ← get
  if key ∉ keys ∧ maxIndicatorKeysPerRun ≤ keys.length then
    throw [.lit "invalid indicator key count: already at the ", .arg (toString maxIndicatorKeysPerRun),
      .lit "-key maximum; cannot request another"]
  else set (if key ∈ keys then keys else keys ++ [key])

/-! ## Bars and indicators -/

/-- The last completed bar of a timeframe, `shift` bars back. -/
def resolveIndex (tf : Tf) (shift : Nat) : Option Nat :=
  let completed := (c.dataset.completed tf)[c.t]!
  if completed ≤ shift then none else some (completed - 1 - shift)

/-- What is read at the bar of a timeframe, if that bar has completed. -/
def atIndex (tf : Tf) (shift : Nat) (read : Nat → Answer F) : Answer F :=
  match c.resolveIndex tf shift with
  | none => .unit
  | some idx => read idx

/-- The columns of prices. -/
inductive OhlcField where
  | opening
  | high
  | low
  | close

/-- The column of a field. -/
def fieldOf (series : TfSeries F) : OhlcField → List F
  | .opening => series.opening
  | .high => series.high
  | .low => series.low
  | .close => series.close

/-- A price of a completed bar. -/
def ohlc [Inhabited F] (tf : String) (shift : Int) (field : OhlcField) : Asks (Answer F) := do
  let tf ← parseTf tf
  let shift ← checkShift shift
  return c.atIndex tf shift fun idx => .float (fieldOf (c.dataset.series tf) field)[idx]!

section

variable [FloatFns F]

/-- A value that is there and is not NaN. -/
def defined : Option F → Option F
  | some v => if FloatFns.isNan v then none else some v
  | none => none

/-- One value of a single series. -/
def readSingle (series : IndicatorSeries (Option F)) (idx : Nat) : Answer F :=
  match series with
  | .single values =>
    match defined values[idx]! with
    | some v => .float v
    | none => .unit
  | _ => .unit

/-- One channel of a channel series, as a map. -/
def readChannel (series : IndicatorSeries (Option F)) (idx : Nat) : Answer F :=
  match series with
  | .channel lower upper =>
    if (defined lower[idx]!).isNone || (defined upper[idx]!).isNone then .unit
    else .map [("upper", upper[idx]!), ("lower", lower[idx]!)]
  | _ => .unit

/-- One band of a band series, as a map. -/
def readBand (series : IndicatorSeries (Option F)) (idx : Nat) : Answer F :=
  match series with
  | .band lower middle upper =>
    if (defined lower[idx]!).isNone then .unit
    else .map [("upper", upper[idx]!), ("middle", middle[idx]!), ("lower", lower[idx]!)]
  | _ => .unit

variable [Inhabited F] [NatCast F] [Add F] [Sub F] [Mul F] [Div F] [Max F] [Neg F] [LT F] [DecidableLT F] [LE F]
  [DecidableLE F] [BEq F]

/-- The series of an indicator over the whole data. -/
def indicator (key : IndicatorKey) : IndicatorSeries (Option F) :=
  Calc.compute fns.sqrt (c.dataset.series key.tf) key

/-- An indicator with one value. -/
def singleIndicator (tf : String) (kind : IndicatorKind) (period shift : Int) : Asks (Answer F) := do
  let tf ← parseTf tf
  let period ← checkPeriod period
  let shift ← checkShift shift
  let key : IndicatorKey := ⟨tf, kind, period, 0⟩
  trackKey key
  return c.atIndex tf shift (readSingle (c.indicator fns key))

/-- The Donchian channel. -/
def channelIndicator (tf : String) (period shift : Int) : Asks (Answer F) := do
  let tf ← parseTf tf
  let period ← checkPeriod period
  let shift ← checkShift shift
  let key : IndicatorKey := ⟨tf, .donchian, period, 0⟩
  trackKey key
  return c.atIndex tf shift (readChannel (c.indicator fns key))

/-- An indicator with three bands. -/
def bandIndicator (tf : String) (kind : IndicatorKind) (period : Int) (mult : F) (shift : Int) :
    Asks (Answer F) := do
  let tf ← parseTf tf
  let period ← checkPeriod period
  let shift ← checkShift shift
  let multX100 ← checkMult fns mult
  let key : IndicatorKey := ⟨tf, kind, period, multX100⟩
  trackKey key
  return c.atIndex tf shift (readBand (c.indicator fns key))

/-! ## What is registered -/

/-- A multiplier, as the script writes it. -/
inductive Mult (F : Type) where
  | int (mult : Int)
  | float (mult : F)

/-- The multiplier as a float. -/
def Mult.toFloat [IntCast F] : Mult F → F
  | .int mult => ((mult : Int) : F)
  | .float mult => mult

/-- The getters and the functions that a script can call. -/
inductive Query (F : Type) where
  | position
  | entryPrice
  | barsHeld
  | unrealizedPips
  | time
  | hour
  | weekday
  | spread
  | ohlc (field : OhlcField) (tf : String) (shift : Int)
  | sma (tf : String) (period shift : Int)
  | ema (tf : String) (period shift : Int)
  | rsi (tf : String) (period shift : Int)
  | atr (tf : String) (period shift : Int)
  | adx (tf : String) (period shift : Int)
  | donchian (tf : String) (period shift : Int)
  | bb (tf : String) (period : Int) (mult : Mult F) (shift : Int)
  | keltner (tf : String) (period : Int) (mult : Mult F) (shift : Int)

variable [IntCast F]

/-- The answer to each query. -/
def ask : Query F → Asks (Answer F)
  | .position => return .int c.position
  | .entryPrice => return .float c.entryPrice
  | .barsHeld => return .int c.barsHeld
  | .unrealizedPips => return .float c.unrealizedPips
  | .time => return .int (← c.endTime)
  | .hour => c.hour fns
  | .weekday => c.weekday fns
  | .spread => return .float c.spreadPips
  | .ohlc field tf shift => c.ohlc tf shift field
  | .sma tf period shift => c.singleIndicator fns tf .sma period shift
  | .ema tf period shift => c.singleIndicator fns tf .ema period shift
  | .rsi tf period shift => c.singleIndicator fns tf .rsi period shift
  | .atr tf period shift => c.singleIndicator fns tf .atr period shift
  | .adx tf period shift => c.singleIndicator fns tf .adx period shift
  | .donchian tf period shift => c.channelIndicator fns tf period shift
  | .bb tf period mult shift => c.bandIndicator fns tf .bb period mult.toFloat shift
  | .keltner tf period mult shift => c.bandIndicator fns tf .keltner period mult.toFloat shift

end

end Ctx

end AutoTrader.Sim
