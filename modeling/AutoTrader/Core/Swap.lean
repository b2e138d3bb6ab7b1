import AutoTrader.Core.Margin

/-!
# Swap points

The swap of one day for a position, from the rates that are configured for its pair.
-/

namespace AutoTrader

/-- The swap rates of a pair for one lot. -/
structure SwapRateEntry where
  long : Decimal
  short : Decimal
  deriving DecidableEq, Repr

/-- The swap rates by pair. -/
structure GmoFxSwapConfig where
  rates : Pair → Option SwapRateEntry

/-- The size of a lot. -/
def gmoFxLotSize : Decimal := 10000

/-- The swap for one day, in whole yen. -/
def computeDailySwap (rate : SwapRateEntry) (direction : Direction) (quantity : Decimal) : Decimal :=
  let perLot := match direction with
    | .long => rate.long
    | .short => rate.short
  let lots := quantity / gmoFxLotSize
  Lib.truncate (perLot * lots)

end AutoTrader
