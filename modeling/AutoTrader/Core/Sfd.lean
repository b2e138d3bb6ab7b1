import AutoTrader.Core.Margin

/-!
# SFD

The charge of one hour for a position in the pair whose price is away from the spot price.
-/

namespace AutoTrader

/-- The daily rate of a divergence. -/
def sfdDailyRate (divergence : Decimal) : Decimal :=
  let d := |divergence|
  if d < 5 / 100 then 0
  else if d < 10 / 100 then 25 / 10000
  else if d < 15 / 100 then 5 / 1000
  else if d < 20 / 100 then 1 / 100
  else 3 / 100

/-- What the fee of a position is reckoned from. -/
structure SfdContext where
  fxPrice : Decimal
  spotPrice : Decimal
  positionNotional : Decimal
  direction : Direction
  deriving DecidableEq, Repr

/-- The fee for one hour. -/
def computeHourlySfd (ctx : SfdContext) : Decimal :=
  if ctx.spotPrice ≤ 0 then 0
  else
    let divergence := (ctx.fxPrice - ctx.spotPrice) / ctx.spotPrice
    let rate := sfdDailyRate divergence
    if rate = 0 then 0
    else
      let magnitude := Lib.truncate (ctx.positionNotional * rate / 24)
      let signPositive := match decide (0 ≤ divergence), ctx.direction with
        | true, .long => true
        | true, .short => false
        | false, .long => false
        | false, .short => true
      if signPositive then magnitude else -magnitude

end AutoTrader
