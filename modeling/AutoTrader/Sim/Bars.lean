import Mathlib.Algebra.Ring.Int.Defs
import Mathlib.Algebra.Ring.Nat
import Mathlib.Data.Int.Order.Basic
import Mathlib.Order.Basic

/-!
# Bars

Bars of five minutes with bid and ask prices in milli units. Prices are `i64`s. Open times are Unix seconds of
representable instants, far inside `i64`, and plain integers here.
-/

namespace AutoTrader.Sim

/-- A pip in thousandths of a yen. -/
def pipMilli : Int64 := 10

/-- Mid2 units in one pip. -/
def pipMid2 : Int := 20

/-- The length of an M5 bar. -/
def m5Secs : Int := 300

/-- A stored bar: both sides of the prices. -/
structure Bar where
  openTime : Int
  bidOpen : Int64
  bidHigh : Int64
  bidLow : Int64
  bidClose : Int64
  askOpen : Int64
  askHigh : Int64
  askLow : Int64
  askClose : Int64
  deriving DecidableEq, Repr

/-! The sums of a bid and an ask price, which are taken not to overflow. -/

namespace Bar

variable (b : Bar)

/-- Twice the middle of the opens. -/
def mid2Open : Int := b.bidOpen.toInt + b.askOpen.toInt

/-- Twice the middle of the highs. -/
def mid2High : Int := b.bidHigh.toInt + b.askHigh.toInt

/-- Twice the middle of the lows. -/
def mid2Low : Int := b.bidLow.toInt + b.askLow.toInt

/-- Twice the middle of the closes. -/
def mid2Close : Int := b.bidClose.toInt + b.askClose.toInt

end Bar

/-- One side of the quote in five minutes. -/
structure Kline where
  openTime : Int
  opening : Int64
  high : Int64
  low : Int64
  close : Int64
  deriving DecidableEq, Repr

/-- The prices of one side fit together. -/
def isValidSide (side : Kline) : Bool :=
  !(side.opening ≤ 0 || side.high ≤ 0 || side.low ≤ 0 || side.close ≤ 0) &&
    !(side.high < max side.opening side.close || min side.opening side.close < side.low)

/-- Both sides fit, and no ask is below its bid. -/
def isValidPair (bid ask : Kline) : Bool :=
  isValidSide bid && isValidSide ask &&
    !(ask.opening < bid.opening || ask.high < bid.high || ask.low < bid.low || ask.close < bid.close)

namespace Bar

/-- The bid side of a bar. -/
def bid (b : Bar) : Kline := ⟨b.openTime, b.bidOpen, b.bidHigh, b.bidLow, b.bidClose⟩

/-- The ask side of a bar. -/
def ask (b : Bar) : Kline := ⟨b.openTime, b.askOpen, b.askHigh, b.askLow, b.askClose⟩

/-- A bar in which nothing moves. -/
def flat (openTime : Int) (bid ask : Int64) : Bar := ⟨openTime, bid, bid, bid, bid, ask, ask, ask, ask⟩

end Bar

end AutoTrader.Sim
