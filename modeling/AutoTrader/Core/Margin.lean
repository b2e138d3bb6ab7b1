import AutoTrader.Core.Types
import AutoTrader.Lib.Truncate

/-!
# Margin and maintenance ratio

`OpenPosition` carries the prices of one position; `computeMaintenanceRatio` pools the positions of
an account. The margin of a trade is the truncated quotient `Trade.margin`, which `requiredMargin` and
the executor compute from the same three fields.
-/

namespace AutoTrader

open Lib (truncate)

/-- An open position at a current price. -/
structure OpenPosition where
  direction : Direction
  entryPrice : Decimal
  currentPrice : Decimal
  quantity : Decimal
  leverage : Decimal
  deriving DecidableEq, Repr

namespace OpenPosition

/-- The price difference in the direction of the position times its quantity. -/
def unrealizedPnl (p : OpenPosition) : Decimal :=
  let diff := match p.direction with
    | .long => p.currentPrice - p.entryPrice
    | .short => p.entryPrice - p.currentPrice
  diff * p.quantity

/-- The margin of a position, in whole yen. -/
def requiredMargin (p : OpenPosition) : Decimal := truncate (p.entryPrice * p.quantity / p.leverage)

end OpenPosition

/-- The equity of the account over the total required margin; `none` if that total is zero. -/
def computeMaintenanceRatio (currentBalance : Decimal) (positions : List OpenPosition) : Option Decimal :=
  let totalRequired := (positions.map OpenPosition.requiredMargin).sum
  if totalRequired = 0 then none
  else
    let totalUnrealized := (positions.map OpenPosition.unrealizedPnl).sum
    let equity := currentBalance + totalRequired + totalUnrealized
    some (equity / totalRequired)

/-- The margin of a trade, from the fields the trade was opened with. -/
def Trade.margin (t : Trade) : Decimal := truncate (t.entryPrice * t.quantity / t.leverage)

/-- The trade valued at a price. -/
def Trade.valued (t : Trade) (price : Decimal) : OpenPosition where
  direction := t.direction
  entryPrice := t.entryPrice
  currentPrice := price
  quantity := t.quantity
  leverage := t.leverage

/-- What of a trade is fixed when it is opened. -/
def Trade.terms (t : Trade) : Trade :=
  { t with fees := 0, exitPrice := none, exitAt := none, pnlAmount := none, exitReason := none, status := .open }

theorem Trade.margin_eq {t u : Trade} (h : t.terms = u.terms) : t.margin = u.margin :=
  show t.terms.margin = u.terms.margin by rw [h]

theorem Trade.accountId_eq {t u : Trade} (h : t.terms = u.terms) : t.accountId = u.accountId :=
  show t.terms.accountId = u.terms.accountId by rw [h]

theorem Trade.quantity_eq {t u : Trade} (h : t.terms = u.terms) : t.quantity = u.quantity :=
  show t.terms.quantity = u.terms.quantity by rw [h]

theorem Trade.stopOrderId_eq {t u : Trade} (h : t.terms = u.terms) : t.stopOrderId = u.stopOrderId :=
  show t.terms.stopOrderId = u.terms.stopOrderId by rw [h]

theorem computeMaintenanceRatio_perm {balance : Decimal} {ps qs : List OpenPosition} (h : ps.Perm qs) :
    computeMaintenanceRatio balance ps = computeMaintenanceRatio balance qs := by
  simp only [computeMaintenanceRatio, (h.map OpenPosition.requiredMargin).sum_eq,
    (h.map OpenPosition.unrealizedPnl).sum_eq]

namespace OpenPosition

theorem requiredMargin_nonneg {p : OpenPosition} (he : 0 ≤ p.entryPrice) (hq : 0 ≤ p.quantity)
    (hl : 0 ≤ p.leverage) : 0 ≤ p.requiredMargin :=
  Lib.truncate_nonneg (div_nonneg (mul_nonneg he hq) hl)

theorem requiredMargin_le {p : OpenPosition} (he : 0 ≤ p.entryPrice) (hq : 0 ≤ p.quantity)
    (hl : 0 ≤ p.leverage) : p.requiredMargin ≤ p.entryPrice * p.quantity / p.leverage :=
  Lib.truncate_le (div_nonneg (mul_nonneg he hq) hl)

end OpenPosition

end AutoTrader
