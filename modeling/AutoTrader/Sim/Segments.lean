import AutoTrader.Sim.Drawdown

/-!
# Segments of the evaluation bars

The six segments are consecutive and cover the bars (`segmentBoundaries_eq`), and the profit of a trade goes to the
one segment in which it was closed (`segmentIndex_spec`). The loop adds in words that wrap around
(`computeSegmentsMilli_eq`): the profits of the segments are those of their trades just when these are words, and then
together they have the total profit (`computeSegmentsMilli_exact`).
-/

namespace AutoTrader.Sim

open Lib (Fits)

/-! ## Sums of amounts -/

theorem milliSum_cons (x : Int64) (amounts : List Int64) : milliSum (x :: amounts) = x + milliSum amounts := by
  unfold milliSum
  rw [List.foldl_cons, Int64.zero_add]
  calc amounts.foldl (· + ·) x = amounts.foldl (· + ·) (x + 0) := by rw [Int64.add_zero]
    _ = x + amounts.foldl (· + ·) 0 := List.foldl_assoc

/-- Adding to one of the amounts adds to the sum. -/
theorem milliSum_set {amounts : List Int64} {i : Nat} {v : Int64} (h : amounts[i]? = some v) (x : Int64) :
    milliSum (amounts.set i (v + x)) = milliSum amounts + x := by
  induction amounts generalizing i with
  | nil => exact absurd h.symm (Option.some_ne_none v)
  | cons first amounts ih =>
    rcases i with _ | i
    · obtain rfl : first = v := Option.some.inj h
      rw [List.set_cons_zero, milliSum_cons, milliSum_cons, Int64.add_assoc, Int64.add_comm x, ← Int64.add_assoc]
    · rw [List.set_cons_succ, milliSum_cons, milliSum_cons, ih h, Int64.add_assoc]

theorem milliSum_replicate_zero (n : Nat) : milliSum (List.replicate n 0) = 0 := by
  induction n with
  | zero => rfl
  | succ n ih => rw [List.replicate_succ, milliSum_cons, ih, Int64.add_zero]

/-- The sum in words is the exact one, wrapped around. -/
theorem toInt_milliSum (amounts : List Int64) :
    (milliSum amounts).toInt = ((amounts.map Int64.toInt).sum).bmod (2 ^ 64) := by
  induction amounts with
  | nil => rfl
  | cons x amounts ih =>
    rw [milliSum_cons, Int64.toInt_add, ih, List.map_cons, List.sum_cons, Int.add_bmod_bmod]

theorem toInt_milliSum_pnl (trades : List SimTrade) :
    (milliSum (trades.map (·.pnlMilli))).toInt = ((milli trades).sum).bmod (2 ^ 64) := by
  rw [toInt_milliSum, List.map_map]
  rfl

/-! ## The segment of a bar -/

theorem segmentBoundaries_eq (n : Nat) :
    segmentBoundaries n = [0, n / 6, 2 * (n / 6), 3 * (n / 6), 4 * (n / 6), 5 * (n / 6), n] := by
  simp [segmentBoundaries, segmentSizes, List.range, List.range.loop, List.scanl]
  omega

theorem segmentIndexFrom_lt (exitIdx : Nat) (boundaries : List Nat) (i : Nat) (hi : i + boundaries.length ≤ 7) :
    segmentIndexFrom exitIdx boundaries i < 6 := by
  induction boundaries generalizing i with
  | nil => exact (by decide : 5 < 6)
  | cons first rest ih =>
    rcases rest with _ | ⟨next, rest⟩
    · exact (by decide : 5 < 6)
    · simp only [List.length_cons] at hi ih
      rw [segmentIndexFrom]
      split
      · omega
      · exact ih (i + 1) (by omega)

/-- The window in which a bar is: between a boundary at or before it and the next one. -/
theorem segmentIndexFrom_spec (exitIdx lo : Nat) (boundaries : List Nat) (i : Nat) (hlo : lo ≤ exitIdx)
    (hlast : ∃ hi ∈ boundaries, exitIdx < hi) :
    ∃ j lo' hi', segmentIndexFrom exitIdx (lo :: boundaries) i = i + j ∧ (lo :: boundaries)[j]? = some lo' ∧
      (lo :: boundaries)[j + 1]? = some hi' ∧ lo' ≤ exitIdx ∧ exitIdx < hi' := by
  induction boundaries generalizing lo i with
  | nil =>
    obtain ⟨hi, hmem, -⟩ := hlast
    exact absurd hmem List.not_mem_nil
  | cons next rest ih =>
    rw [segmentIndexFrom]
    by_cases hlt : exitIdx < next
    · exact ⟨0, lo, next, if_pos hlt, rfl, rfl, hlo, hlt⟩
    · rw [if_neg hlt]
      obtain ⟨hi, hmem, hhi⟩ := hlast
      have hrest : ∃ hi ∈ rest, exitIdx < hi := by
        rcases List.mem_cons.mp hmem with rfl | hmem
        · exact absurd hhi hlt
        · exact ⟨hi, hmem, hhi⟩
      obtain ⟨j, lo', hi', hidx, hget, hget', hle, hlt'⟩ := ih next (i + 1) (Nat.le_of_not_lt hlt) hrest
      exact ⟨j + 1, lo', hi', by rw [hidx]; omega, hget, hget', hle, hlt'⟩

theorem segmentIndex_lt (exitIdx n : Nat) : segmentIndex exitIdx (segmentBoundaries n) < 6 := by
  rw [segmentBoundaries_eq]
  exact segmentIndexFrom_lt exitIdx _ 0 (le_refl 7)

theorem segmentIndex_spec {exitIdx n : Nat} (h : exitIdx < n) :
    ∃ lo hi, (segmentBoundaries n)[segmentIndex exitIdx (segmentBoundaries n)]? = some lo ∧
      (segmentBoundaries n)[segmentIndex exitIdx (segmentBoundaries n) + 1]? = some hi ∧
      lo ≤ exitIdx ∧ exitIdx < hi := by
  rw [segmentBoundaries_eq]
  obtain ⟨j, lo, hi, hidx, hlo, hhi, hle, hlt⟩ := segmentIndexFrom_spec exitIdx 0
    [n / 6, 2 * (n / 6), 3 * (n / 6), 4 * (n / 6), 5 * (n / 6), n] 0 (Nat.zero_le _) ⟨n, by simp, h⟩
  refine ⟨lo, hi, ?_, ?_, hle, hlt⟩
  · rw [segmentIndex, hidx, Nat.zero_add]
    exact hlo
  · rw [segmentIndex, hidx, Nat.zero_add]
    exact hhi

/-! ## The profit of the segments -/

theorem addToSegment_eq {n : Nat} {segmentsMilli : List Int64} (hlen : segmentsMilli.length = 6) (trade : SimTrade) :
    ∃ v, segmentsMilli[segmentIndex trade.exitIdx (segmentBoundaries n)]? = some v ∧
      addToSegment (segmentBoundaries n) segmentsMilli trade =
        .ok (segmentsMilli.set (segmentIndex trade.exitIdx (segmentBoundaries n)) (v + trade.pnlMilli)) := by
  have hlt := segmentIndex_lt trade.exitIdx n
  rw [← hlen] at hlt
  refine ⟨_, List.getElem?_eq_getElem hlt, ?_⟩
  unfold addToSegment readAt
  dsimp only
  rw [List.getElem?_eq_getElem hlt]
  rfl

/-- The trades closed in a segment. -/
def closedIn (n : Nat) (trades : List SimTrade) (i : Nat) : List SimTrade :=
  trades.filter fun trade => decide (segmentIndex trade.exitIdx (segmentBoundaries n) = i)

theorem closedIn_cons_self (n : Nat) (trade : SimTrade) (trades : List SimTrade) {i : Nat}
    (h : segmentIndex trade.exitIdx (segmentBoundaries n) = i) :
    closedIn n (trade :: trades) i = trade :: closedIn n trades i :=
  List.filter_cons_of_pos (decide_eq_true h)

theorem closedIn_cons_of_ne (n : Nat) (trade : SimTrade) (trades : List SimTrade) {i : Nat}
    (h : segmentIndex trade.exitIdx (segmentBoundaries n) ≠ i) :
    closedIn n (trade :: trades) i = closedIn n trades i :=
  List.filter_cons_of_neg (by simpa using h)

/-- The sum that the loop has for a segment. -/
def segmentProfit (n : Nat) (trades : List SimTrade) (i : Nat) : Int64 :=
  milliSum ((closedIn n trades i).map (·.pnlMilli))

theorem segmentProfit_cons (n : Nat) (trade : SimTrade) (trades : List SimTrade) (i : Nat) :
    segmentProfit n (trade :: trades) i =
      (if segmentIndex trade.exitIdx (segmentBoundaries n) = i then trade.pnlMilli else 0) +
        segmentProfit n trades i := by
  unfold segmentProfit
  by_cases h : segmentIndex trade.exitIdx (segmentBoundaries n) = i
  · rw [closedIn_cons_self n trade trades h, if_pos h, List.map_cons, milliSum_cons]
  · rw [closedIn_cons_of_ne n trade trades h, if_neg h, Int64.zero_add]

/-- Each trade is closed in one of the six segments. -/
theorem sum_closedIn (n : Nat) (trades : List SimTrade) :
    ((List.range 6).map fun i => (milli (closedIn n trades i)).sum).sum = (milli trades).sum := by
  induction trades with
  | nil => rfl
  | cons trade trades ih =>
    have hstep : ∀ i, (milli (closedIn n (trade :: trades) i)).sum =
        (if i = segmentIndex trade.exitIdx (segmentBoundaries n) then trade.pnlMilli.toInt else 0) +
          (milli (closedIn n trades i)).sum := by
      intro i
      by_cases h : segmentIndex trade.exitIdx (segmentBoundaries n) = i
      · rw [closedIn_cons_self n trade trades h, if_pos h.symm]
        rfl
      · rw [closedIn_cons_of_ne n trade trades h, if_neg fun heq => h heq.symm, Int.zero_add]
    have hlt := segmentIndex_lt trade.exitIdx n
    have hone : ((List.range 6).map fun i =>
        if i = segmentIndex trade.exitIdx (segmentBoundaries n) then trade.pnlMilli.toInt else 0).sum =
          trade.pnlMilli.toInt := by
      rw [List.sum_map_ite_eq, List.count_eq_one_of_mem List.nodup_range (List.mem_range.mpr hlt), one_nsmul]
      simp
    calc ((List.range 6).map fun i => (milli (closedIn n (trade :: trades) i)).sum).sum
        = trade.pnlMilli.toInt + (milli trades).sum := by
          rw [List.map_congr_left fun i _ => hstep i, List.sum_map_add, hone, ih]
      _ = (milli (trade :: trades)).sum := rfl

theorem foldlM_addToSegment (n : Nat) (trades : List SimTrade) (segmentsMilli : List Int64)
    (hlen : segmentsMilli.length = 6) :
    ∃ result, trades.foldlM (addToSegment (segmentBoundaries n)) segmentsMilli = .ok result ∧ result.length = 6 ∧
      milliSum result = milliSum segmentsMilli + milliSum (trades.map (·.pnlMilli)) ∧
      ∀ (i : Nat) (v : Int64), segmentsMilli[i]? = some v → result[i]? = some (v + segmentProfit n trades i) := by
  induction trades generalizing segmentsMilli with
  | nil =>
    refine ⟨segmentsMilli, rfl, hlen, (Int64.add_zero _).symm, fun i v h => ?_⟩
    rw [h]
    exact congrArg some (Int64.add_zero v).symm
  | cons trade trades ih =>
    obtain ⟨v, hv, hadd⟩ := addToSegment_eq (n := n) hlen trade
    obtain ⟨result, hfold, hlen', hsum, hget⟩ := ih
      (segmentsMilli.set (segmentIndex trade.exitIdx (segmentBoundaries n)) (v + trade.pnlMilli))
      (by rw [List.length_set, hlen])
    refine ⟨result, ?_, hlen', ?_, fun i w hw => ?_⟩
    · rw [List.foldlM_cons, hadd]
      exact hfold
    · rw [hsum, milliSum_set hv, List.map_cons, milliSum_cons, Int64.add_assoc]
    · rw [segmentProfit_cons]
      by_cases h : segmentIndex trade.exitIdx (segmentBoundaries n) = i
      · obtain rfl : v = w := Option.some.inj ((h ▸ hv).symm.trans hw)
        rw [if_pos h, ← Int64.add_assoc]
        refine hget i _ ?_
        rw [← h]
        exact List.getElem?_set_self (List.getElem?_eq_some_iff.mp hv).1
      · rw [if_neg h, Int64.zero_add]
        refine hget i w ?_
        rw [List.getElem?_set_ne h]
        exact hw

theorem computeSegmentsMilli_eq (n : Nat) (trades : List SimTrade) :
    ∃ milli, computeSegmentsMilli n trades = .ok milli ∧ milli.length = 6 ∧
      milliSum milli = milliSum (trades.map (·.pnlMilli)) ∧
      ∀ i, i < 6 → milli[i]? = some (segmentProfit n trades i) := by
  obtain ⟨milli, hfold, hlen, hsum, hget⟩ := foldlM_addToSegment n trades (List.replicate 6 0) rfl
  refine ⟨milli, hfold, hlen, ?_, fun i hi => ?_⟩
  · rw [hsum, milliSum_replicate_zero, Int64.zero_add]
  · rw [hget i 0 (List.getElem?_replicate_of_lt hi), Int64.zero_add]

/-- The profits of the trades closed in each segment, and of all trades, are words. -/
structure ProfitsFit (n : Nat) (trades : List SimTrade) : Prop where
  segment : ∀ i, i < 6 → Fits (milli (closedIn n trades i)).sum
  total : Fits (milli trades).sum

/-- The exact profits of the segments: of the trades closed in each, and with the total profit together. -/
structure ExactSegments (n : Nat) (trades : List SimTrade) (segmentsMilli : List Int64) : Prop where
  segment : ∀ i, i < 6 → ∃ profit, segmentsMilli[i]? = some profit ∧ profit.toInt = (milli (closedIn n trades i)).sum
  total : (milliSum (trades.map (·.pnlMilli))).toInt = (milli trades).sum
  sum : (segmentsMilli.map Int64.toInt).sum = (milliSum (trades.map (·.pnlMilli))).toInt

theorem computeSegmentsMilli_exact {n : Nat} {trades : List SimTrade} {result : List Int64}
    (h : computeSegmentsMilli n trades = .ok result) :
    ExactSegments n trades result ↔ ProfitsFit n trades := by
  obtain ⟨segmentsMilli, hmilli, hlen, -, hget⟩ := computeSegmentsMilli_eq n trades
  obtain rfl : segmentsMilli = result := Except.ok.inj (hmilli.symm.trans h)
  have hsegment : ∀ i, (segmentProfit n trades i).toInt = ((milli (closedIn n trades i)).sum).bmod (2 ^ 64) :=
    fun i => toInt_milliSum_pnl (closedIn n trades i)
  constructor
  · intro hexact
    refine ⟨fun i hi => ?_, ?_⟩
    · obtain ⟨profit, hprofit, heq⟩ := hexact.segment i hi
      obtain rfl : segmentProfit n trades i = profit := Option.some.inj ((hget i hi).symm.trans hprofit)
      exact Lib.bmod_eq_iff_fits.mp ((hsegment i).symm.trans heq)
    · exact Lib.bmod_eq_iff_fits.mp ((toInt_milliSum_pnl trades).symm.trans hexact.total)
  · intro hfit
    have htotal : (milliSum (trades.map (·.pnlMilli))).toInt = (milli trades).sum :=
      (toInt_milliSum_pnl trades).trans (Lib.bmod_of_fits hfit.total)
    have hparts : segmentsMilli = (List.range 6).map fun i => segmentProfit n trades i := by
      refine List.ext_getElem? fun i => ?_
      rcases Nat.lt_or_ge i 6 with hi | hi
      · rw [hget i hi, List.getElem?_map, List.getElem?_range hi, Option.map_some]
      · rw [List.getElem?_eq_none (by omega), List.getElem?_eq_none (by simpa using hi)]
    refine ⟨fun i hi => ⟨_, hget i hi, ?_⟩, htotal, ?_⟩
    · exact (hsegment i).trans (Lib.bmod_of_fits (hfit.segment i hi))
    · rw [htotal, ← sum_closedIn n trades, hparts, List.map_map]
      refine congrArg List.sum (List.map_congr_left fun i hi => ?_)
      exact (hsegment i).trans (Lib.bmod_of_fits (hfit.segment i (List.mem_range.mp hi)))

end AutoTrader.Sim
