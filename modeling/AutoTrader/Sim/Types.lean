import AutoTrader.Core.Error
import Mathlib.Data.List.Basic

/-!
# Errors, timeframes and indicators of the simulator

The values of an indicator are floating-point numbers, of which nothing is assumed here: `F` is any type.
-/

namespace AutoTrader.Sim

/-- The errors that the modelled functions make themselves. -/
inductive SimError where
  | args (e : Error)
  | invalidScript (e : Error)
  | other (e : Error)
  deriving DecidableEq, Repr

/-- The timeframes. -/
inductive Tf where
  | m5
  | m15
  | h1
  | h4
  deriving DecidableEq, Repr

/-- The kinds of indicators. -/
inductive IndicatorKind where
  | sma
  | ema
  | rsi
  | atr
  | adx
  | bb
  | donchian
  | keltner
  deriving DecidableEq, Repr

/-- What an indicator series is of: the timeframe, the kind and the parameters. -/
structure IndicatorKey where
  tf : Tf
  kind : IndicatorKind
  period : Nat
  multX100 : Nat
  deriving DecidableEq, Repr

/-- The values of an indicator for each bar. -/
inductive IndicatorSeries (F : Type) where
  | single (values : List F)
  | band (lower middle upper : List F)
  | channel (lower upper : List F)
  deriving DecidableEq, Repr

/-- A rough size: eight bytes for every value. -/
def IndicatorSeries.estimateBytes {F : Type} : IndicatorSeries F → Nat
  | single values => values.length * 8
  | band lower middle upper => (lower.length + middle.length + upper.length) * 8
  | channel lower upper => (lower.length + upper.length) * 8

end AutoTrader.Sim
