import AutoTrader.Core.Types
import Mathlib.Data.Rat.Floor

/-!
# Order sizes

`calculateQuantity` sizes an order so that the account stays above its liquidation level when the
stop is hit, and `roundTriggerPrice` rounds the trigger of the stop to the price unit of the pair.
Both maps of the sizer are functions here; a pair without an entry has `none`.
-/

namespace AutoTrader

/-- The settings of the sizer. -/
structure PositionSizer where
  minOrderSizes : Pair → Option Decimal
  marginBuffer : Decimal
  priceUnits : Pair → Option Decimal

namespace PositionSizer

variable (s : PositionSizer)

/-- The trigger price as a multiple of the price unit: up for a long, down for a short. -/
def roundTriggerPrice (pair : Pair) (price : Decimal) (direction : Direction) : Decimal :=
  let unit := (s.priceUnits pair).getD 0
  if unit ≤ 0 then price
  else
    let steps := price / unit
    let rounded : Int := match direction with
      | .long => ⌈steps⌉
      | .short => ⌊steps⌋
    rounded * unit

/-- The quantity of an open, in whole minimal orders. -/
def calculateQuantity (pair : Pair) (balance entryPrice leverage allocationPct stopLossPct
    liquidationMarginLevel : Decimal) : Option Decimal :=
  if balance ≤ 0 ∨ entryPrice ≤ 0 ∨ leverage ≤ 0 ∨ allocationPct ≤ 0 ∨ allocationPct > 1 ∨ stopLossPct ≤ 0 ∨
      liquidationMarginLevel ≤ 0 then none
  else
    let yEff := liquidationMarginLevel + s.marginBuffer
    let maxAlloc := 1 / (yEff + leverage * stopLossPct)
    let riskAlloc := min maxAlloc allocationPct
    let rawQty := balance * leverage * riskAlloc / entryPrice
    let minSize := (s.minOrderSizes pair).getD 0
    if 0 < minSize then
      let truncated := (⌊rawQty / minSize⌋ : Int) * minSize
      if truncated < minSize then none else some truncated
    else if 0 < rawQty then some rawQty
    else none

end PositionSizer

end AutoTrader
