import AutoTrader.Executor.Sizing

/-!
# One position of the calculated size

`sized_position_safe`: a position of the size that `calculateQuantity` returns stands at or above its margin
level and the buffer when its price is at the stop, its margin is within the balance, and where the pair is
traded in lots it is made of as many as the allowed allocation has room for.
-/

namespace AutoTrader

namespace PositionSizer

variable {s : PositionSizer} {pair : Pair} {balance price leverage alloc level q : Decimal} {signal : Signal}

/-- The margin keeps to the allocation. -/
theorem margin_le_allocated
    (h : s.calculateQuantity pair balance price leverage alloc signal.stopLossPct level = some q) :
    (signal.atStop price leverage q).requiredMargin ≤ balance := by
  obtain ⟨⟨hbalance, hprice, hleverage, -, halloc, -, -⟩, hq, hle, -⟩ := calculateQuantity_spec h
  have hone : q * price / (balance * leverage) ≤ 1 := hle.trans ((min_le_right _ _).trans halloc)
  rw [div_le_one (mul_pos hbalance hleverage)] at hone
  calc (signal.atStop price leverage q).requiredMargin
      ≤ price * q / leverage := OpenPosition.requiredMargin_le hprice.le hq.le hleverage.le
    _ ≤ balance := (div_le_iff₀ hleverage).mpr (by linarith)

/-- At the stop, the balance less the margin supports the position. -/
theorem ratio_atStop (hb : 0 ≤ s.marginBuffer)
    (h : s.calculateQuantity pair balance price leverage alloc signal.stopLossPct level = some q) :
    ∀ ratio ∈ computeMaintenanceRatio (balance - (signal.atStop price leverage q).requiredMargin)
      [signal.atStop price leverage q], level + s.marginBuffer ≤ ratio := by
  intro ratio hr
  obtain ⟨hmargin, -, hfits⟩ := calculateQuantity_fits hb h
  simp only [computeMaintenanceRatio, List.map_cons, List.map_nil, List.sum_cons, List.sum_nil, add_zero] at hr
  split at hr
  · cases hr
  · rename_i hne
    obtain rfl := Option.some.inj hr
    rw [le_div_iff₀ (lt_of_le_of_ne hmargin (Ne.symm hne))]
    linarith

theorem sized_position_safe (hb : 0 ≤ s.marginBuffer)
    (h : s.calculateQuantity pair balance price leverage alloc signal.stopLossPct level = some q) :
    (∀ ratio ∈ computeMaintenanceRatio (balance - (signal.atStop price leverage q).requiredMargin)
      [signal.atStop price leverage q], level + s.marginBuffer ≤ ratio) ∧
    (signal.atStop price leverage q).requiredMargin ≤ balance ∧
    0 < q ∧ allocated balance price leverage q ≤ s.allowedAllocation leverage alloc signal.stopLossPct level ∧
    ∀ minSize ∈ s.minOrderSizes pair, 0 < minSize → (∃ k : Nat, 0 < k ∧ q = k * minSize) ∧
      s.allowedAllocation leverage alloc signal.stopLossPct level < allocated balance price leverage (q + minSize) := by
  obtain ⟨-, hq, hle, hlots⟩ := calculateQuantity_spec h
  exact ⟨ratio_atStop hb h, margin_le_allocated h, hq, hle, hlots⟩

/-- A sizer of one lot size. -/
def sampleLots : PositionSizer where
  minOrderSizes := fun _ => some (1 / 100)
  marginBuffer := 1 / 10
  priceUnits := fun _ => none

/-- A short signal with its stop at two percent. -/
def sampleShort : Signal where
  strategyName := "donchian"
  pair := "FX_BTC_JPY"
  direction := .short
  stopLossPct := 1 / 50
  takeProfitPct := none
  allocationPct := 1 / 2
  maxHoldUntil := none

theorem sampleLots_calculated :
    sampleLots.calculateQuantity "FX_BTC_JPY" 30000 5000 2 (1 / 2) sampleShort.stopLossPct (1 / 2) = some 6 := by
  decide +kernel

/-- At a price of 5000 and a leverage of 2, a size of 6 takes half of the balance. -/
theorem sampleLots_safe :
    (∀ ratio ∈ computeMaintenanceRatio (30000 - (sampleShort.atStop 5000 2 6).requiredMargin)
      [sampleShort.atStop 5000 2 6], 1 / 2 + sampleLots.marginBuffer ≤ ratio) ∧
    (sampleShort.atStop 5000 2 6).requiredMargin ≤ 30000 ∧
    0 < (6 : Decimal) ∧
      allocated 30000 5000 2 6 ≤ sampleLots.allowedAllocation 2 (1 / 2) sampleShort.stopLossPct (1 / 2) ∧
    ∀ minSize ∈ sampleLots.minOrderSizes "FX_BTC_JPY", 0 < minSize → (∃ k : Nat, 0 < k ∧ (6 : Decimal) = k * minSize) ∧
      sampleLots.allowedAllocation 2 (1 / 2) sampleShort.stopLossPct (1 / 2) < allocated 30000 5000 2 (6 + minSize) :=
  sized_position_safe (by decide +kernel) sampleLots_calculated

end PositionSizer

end AutoTrader
