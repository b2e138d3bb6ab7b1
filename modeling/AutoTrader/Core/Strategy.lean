import AutoTrader.Core.Types
import Mathlib.Algebra.Order.Ring.Rat
import Mathlib.Algebra.Order.Group.Unbundled.Abs
import Mathlib.Tactic.Linarith

/-!
# Profits of one risk

A strategy closes a position only after its profit has reached the distance of its stop, which is one R
(`hasReachedOneR`).
-/

namespace AutoTrader

/-- What the position earns for each unit at a price. -/
def unrealizedAt (direction : Direction) (entryPrice currentPrice : Decimal) : Decimal :=
  match direction with
  | .long => currentPrice - entryPrice
  | .short => entryPrice - currentPrice

/-- The stop lies on the side of the entry where the position loses. -/
def StopOnCorrectSide (direction : Direction) (entryPrice stopLoss : Decimal) : Prop :=
  match direction with
  | .long => stopLoss < entryPrice
  | .short => stopLoss > entryPrice

instance (direction : Direction) (entryPrice stopLoss : Decimal) :
    Decidable (StopOnCorrectSide direction entryPrice stopLoss) :=
  match direction with
  | .long => inferInstanceAs (Decidable (stopLoss < entryPrice))
  | .short => inferInstanceAs (Decidable (stopLoss > entryPrice))

/-- The profit has reached the stop distance. A stop that says nothing of the risk is no reason to wait. -/
def hasReachedOneR (direction : Direction) (entryPrice stopLoss currentPrice : Decimal) : Bool :=
  if entryPrice ≤ 0 ∨ stopLoss ≤ 0 then true
  else if ¬StopOnCorrectSide direction entryPrice stopLoss then true
  else unrealizedAt direction entryPrice currentPrice ≥ |entryPrice - stopLoss|

/-- A position with a sound stop is not closed for less than it has risked. -/
theorem hasReachedOneR_iff {direction : Direction} {entryPrice stopLoss currentPrice : Decimal}
    (hentry : 0 < entryPrice) (hstop : 0 < stopLoss) (hside : StopOnCorrectSide direction entryPrice stopLoss) :
    hasReachedOneR direction entryPrice stopLoss currentPrice = true ↔
      -unrealizedAt direction entryPrice stopLoss ≤ unrealizedAt direction entryPrice currentPrice := by
  unfold hasReachedOneR
  rw [if_neg (by simp [hentry, hstop]), if_neg (not_not.mpr hside), decide_eq_true_iff]
  cases direction with
  | long =>
    have hlt : stopLoss < entryPrice := hside
    rw [abs_of_pos (sub_pos.mpr hlt)]
    show _ ≤ _ ↔ -(stopLoss - entryPrice) ≤ _
    rw [neg_sub]
  | short =>
    have hlt : entryPrice < stopLoss := hside
    rw [abs_of_neg (sub_neg.mpr hlt)]
    exact Iff.rfl

end AutoTrader
