import AutoTrader.Core.Types

/-!
# Candles and price events

What the market side hands to a strategy, and the signal a strategy answers with. A timeframe is the text
the program writes (`"M5"`, `"M15"`, `"H1"`).
-/

namespace AutoTrader

/-- A candle. -/
structure Candle where
  pair : Pair
  exchange : Exchange
  timeframe : String
  «open» : Decimal
  high : Decimal
  low : Decimal
  close : Decimal
  volume : Option UInt64
  bestBid : Option Decimal
  bestAsk : Option Decimal
  timestamp : DateTime
  deriving DecidableEq, Repr

/-- A candle as the strategies are given it. -/
structure PriceEvent where
  pair : Pair
  exchange : Exchange
  candle : Candle
  timestamp : DateTime
  deriving DecidableEq, Repr

/-- A signal with what only its strategy knows: how sure it is, and of when it is. -/
structure PriceSignal extends Signal where
  confidence : Decimal
  timestamp : DateTime
  deriving DecidableEq, Repr

/-- What stops the program in the middle of an answer. -/
inductive Panic where
  | divisionByZero
  | indexOutOfRange
  deriving DecidableEq, Repr

/-- A computation that may stop early without an answer, or panic. -/
abbrev Answer := OptionT (Except Panic)

namespace Answer

variable {α : Type}

/-- The value of an option, or no answer. -/
def ofOption (o : Option α) : Answer α := OptionT.mk (.ok o)

/-- A quotient of amounts. -/
def divide (a b : Decimal) : Answer Decimal :=
  OptionT.mk (if b = 0 then .error .divisionByZero else .ok (some (a / b)))

/-- An element of a list by its index. -/
def index (xs : List α) (i : Nat) : Answer α :=
  OptionT.mk (match xs[i]? with
    | none => .error .indexOutOfRange
    | some x => .ok (some x))

end Answer

end AutoTrader
