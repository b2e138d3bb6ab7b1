import Mathlib.Data.Rat.Defs

/-!
# Trades, signals and positions

The domain types shared by the whole program. Amounts are exact rationals, times are microseconds
since the epoch and identifiers are numbers; the text form a status or an exchange has in the
database is not modelled, so a stored value is always a supported one.
-/

namespace AutoTrader

/-- Amounts, prices and quantities. -/
abbrev Decimal := Rat

/-- Identifiers. -/
abbrev Uuid := Nat

/-- Microseconds since the epoch. -/
abbrev DateTime := Int

/-- The microseconds of `n` seconds. -/
def seconds (n : Int) : Int := n * 1000000

/-- Pairs, by their names. -/
abbrev Pair := String

/-- The exchanges. -/
inductive Exchange where
  | oanda
  | bitflyerCfd
  | gmoFx
  deriving DecidableEq, Repr

/-- The name of an exchange. -/
def Exchange.asStr : Exchange → String
  | .oanda => "oanda"
  | .bitflyerCfd => "bitflyer_cfd"
  | .gmoFx => "gmo_fx"

/-- The directions of a trade. -/
inductive Direction where
  | long
  | short
  deriving DecidableEq, Repr

/-- The states of a trade. -/
inductive TradeStatus where
  | «open»
  | closing
  | closed
  deriving DecidableEq, Repr

/-- Why a trade was closed. -/
inductive ExitReason where
  | tpHit
  | slHit
  | manual
  | signalReverse
  | strategyMeanReached
  | strategyTrailingChannel
  | strategyTrailingMa
  | strategyIndicatorReversal
  | strategyTimeLimit
  | reconciled
  | liquidation
  deriving DecidableEq, Repr

/-- A signal. -/
structure Signal where
  strategyName : String
  pair : Pair
  direction : Direction
  stopLossPct : Decimal
  takeProfitPct : Option Decimal
  allocationPct : Decimal
  maxHoldUntil : Option DateTime
  deriving DecidableEq, Repr

/-- A trade. -/
structure Trade where
  id : Uuid
  accountId : Uuid
  strategyName : String
  pair : Pair
  exchange : Exchange
  direction : Direction
  entryPrice : Decimal
  exitPrice : Option Decimal
  stopLoss : Decimal
  takeProfit : Option Decimal
  quantity : Decimal
  leverage : Decimal
  fees : Decimal
  entryAt : DateTime
  exitAt : Option DateTime
  pnlAmount : Option Decimal
  exitReason : Option ExitReason
  status : TradeStatus
  maxHoldUntil : Option DateTime
  exchangePositionId : Option String
  stopOrderId : Option String
  deriving DecidableEq, Repr

/-- An open position, as the executor reports it. -/
structure Position where
  trade : Trade
  deriving DecidableEq, Repr

end AutoTrader
