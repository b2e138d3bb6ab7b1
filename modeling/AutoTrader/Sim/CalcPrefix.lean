import AutoTrader.Sim.Calc

/-!
# Indicators of the first bars

The first values of an indicator are those of the series of the first bars (`compute_take`): no value depends on
a later bar. Nothing is assumed of the floating-point operations.
-/

namespace AutoTrader.Sim

/-- The first `m` bars of every column. -/
def TfSeries.take {F : Type} (s : TfSeries F) (m : Nat) : TfSeries F where
  opening := s.opening.take m
  high := s.high.take m
  low := s.low.take m
  close := s.close.take m
  endTime := s.endTime.take m

/-- The first `m` values of a series. -/
def IndicatorSeries.take {F : Type} (m : Nat) : IndicatorSeries F → IndicatorSeries F
  | single values => single (values.take m)
  | band lower middle upper => band (lower.take m) (middle.take m) (upper.take m)
  | channel lower upper => channel (lower.take m) (upper.take m)

namespace Calc

open Lib (loopValues loopValues_take loopValues_congr loopValues_congr_of loopValues_eq_replicate scanl_congr
  getElem!_take mem_of_mem_moveDeque moveDeque)

variable {F : Type}

/-! ## Undefined values -/

theorem take_allNan (n m : Nat) : (allNan n : List (Option F)).take m = allNan (min m n) := by
  simp [allNan]

/-- A series that begins with undefined values. -/
theorem take_allNan_append {k m : Nat} (values : List (Option F)) :
    (allNan k ++ values).take m = allNan (min m k) ++ values.take (m - k) := by
  simp [allNan, List.take_append]

theorem allNan_append (k m : Nat) : (allNan k ++ allNan m : List (Option F)) = allNan (k + m) := by
  simp [allNan]

theorem lt_of_mem_range_take {xs : List F} {m i : Nat} (hi : i ∈ List.range (xs.take m).length) : i < m := by
  rw [List.mem_range, List.length_take] at hi
  omega

theorem take_range_length (xs : List F) (m : Nat) :
    (List.range xs.length).take m = List.range (xs.take m).length := by
  rw [List.take_range, List.length_take]

/-! ## Moving averages -/

section

variable [Inhabited F] [Add F] [Sub F]

theorem slide_take {xs : List F} {period m i : Nat} (hi : i < m) (sum : F) :
    slide (xs.take m) period sum i = slide xs period sum i := by
  have hold : i - period < m := by omega
  unfold slide
  rw [getElem!_take hi, getElem!_take hold]

end

section

variable [Inhabited F] [NatCast F] [Add F] [Sub F] [Div F]

theorem smaSeries_take (closes : List F) (period m : Nat) :
    smaSeries (closes.take m) period = (smaSeries closes period).take m := by
  unfold smaSeries
  by_cases hp : period = 0
  · rw [if_pos hp, if_pos hp, take_allNan, List.length_take]
  · rw [if_neg hp, if_neg hp, loopValues_take, take_range_length]
    refine loopValues_congr (fun i hi sum => ?_) fun _ _ _ => rfl
    exact slide_take (lt_of_mem_range_take hi) sum

end

/-- A series that begins with undefined values, unless there are too few bars and all of them are. -/
theorem take_warm {n k m : Nat} (hk : k < n) (values values' : List (Option F))
    (hv : k < m → values' = values.take (m - k)) :
    (if min m n < k + 1 then allNan (min m n) else allNan k ++ values') = (allNan k ++ values).take m := by
  rw [take_allNan_append]
  by_cases hm : m ≤ k
  · have hnone : m - k = 0 := by omega
    have hall : min m n = min m k := by omega
    rw [if_pos (by omega), hnone, List.take_zero, List.append_nil, hall]
  · have hall : min m k = k := by omega
    rw [if_neg (by omega), hall, hv (by omega)]

section

variable [NatCast F] [Add F] [Sub F] [Mul F] [Div F]

theorem emaSeries_take (closes : List F) (period m : Nat) :
    emaSeries (closes.take m) period = (emaSeries closes period).take m := by
  unfold emaSeries
  rw [List.length_take]
  by_cases hp : period = 0 ∨ closes.length < period
  · rw [if_pos hp, if_pos (by omega), take_allNan]
  · have hcond : (period = 0 ∨ min m closes.length < period) ↔ min m closes.length < period - 1 + 1 := by omega
    rw [if_neg hp, if_congr hcond rfl rfl]
    refine take_warm (by omega) _ _ fun hm => ?_
    have hcount : m - (period - 1) = m - period + 1 := by omega
    have hseed : (closes.take m).take period = closes.take period := by
      rw [List.take_take, Nat.min_eq_left (by omega)]
    rw [hseed, hcount, ← List.map_take, List.take_scanl, List.drop_take]

end

/-! ## Relative strength -/

theorem length_diffs [Sub F] (closes : List F) : (diffs closes).length = closes.length - 1 := by
  simp [diffs]

theorem diffs_take [Sub F] (closes : List F) (m : Nat) : diffs (closes.take (m + 1)) = (diffs closes).take m := by
  induction closes generalizing m with
  | nil => simp [diffs]
  | cons a closes ih =>
    rcases closes with _ | ⟨b, closes⟩
    · simp [diffs]
    · rcases m with _ | m
      · simp [diffs]
      · have h := ih m
        rw [List.take_succ_cons] at h
        show (b - a) :: diffs (b :: closes.take m) = (b - a) :: (diffs (b :: closes)).take m
        rw [h]

section

variable [Inhabited F] [NatCast F] [Add F] [Sub F] [Neg F] [LT F] [DecidableLT F]

theorem Strength.step_take {ds : List F} {period m k : Nat} (hk : k < m) (s : Strength F) :
    Strength.step (ds.take m) period s k = Strength.step ds period s k := by
  have hold : k - period < m := by omega
  unfold Strength.step
  rw [getElem!_take hk, getElem!_take hold]

variable [Div F] [BEq F]

theorem rsiSeries_take (closes : List F) (period m : Nat) :
    rsiSeries (closes.take m) period = (rsiSeries closes period).take m := by
  unfold rsiSeries
  rw [List.length_take]
  by_cases hp : period = 0 ∨ closes.length < period + 1
  · rw [if_pos hp, if_pos (by omega), take_allNan]
  · rw [if_neg hp]
    rcases m with _ | m
    · rw [if_pos (by omega)]
      simp [allNan]
    · rw [diffs_take, List.take_succ_cons, loopValues_take, take_range_length]
      have hloop : loopValues (Strength.step ((diffs closes).take m) period)
            (fun s k => if period ≤ k + 1 then some (s.index period) else none) .init
            (List.range ((diffs closes).take m).length) =
          loopValues (Strength.step (diffs closes) period)
            (fun s k => if period ≤ k + 1 then some (s.index period) else none) .init
            (List.range ((diffs closes).take m).length) :=
        loopValues_congr (fun k hk s => Strength.step_take (lt_of_mem_range_take hk) s) fun _ _ _ => rfl
      by_cases hm : m < period
      · -- too few changes for a value, so the loop would not write one
        have hnone : loopValues (Strength.step (diffs closes) period)
              (fun s k => if period ≤ k + 1 then some (s.index period) else none) .init
              (List.range ((diffs closes).take m).length) = allNan m := by
          rw [loopValues_eq_replicate, List.length_range, List.length_take, length_diffs,
            Nat.min_eq_left (by omega)]
          · rfl
          · intro k hk s
            have hkm := lt_of_mem_range_take hk
            exact if_neg (by omega)
        rw [if_pos (by omega), hnone, Nat.min_eq_left (by omega)]
        rfl
      · rw [if_neg (by omega), hloop]

end

/-! ## True ranges -/

theorem take_range' (start n m : Nat) : (List.range' start n).take m = List.range' start (min m n) := by
  rcases Nat.le_total n m with h | h
  · rw [List.take_range'_of_length_le h, Nat.min_eq_right h]
  · rw [List.take_range'_of_length_ge h, Nat.min_eq_left h]

section

variable [Inhabited F] [NatCast F] [Add F] [Sub F] [Mul F] [Div F] [Max F] [FloatFns F]

omit [NatCast F] [Add F] [Mul F] [Div F] in
theorem trueRange_take (highs lows closes : List F) {m k : Nat} (hk : k < m) :
    trueRange (highs.take m) (lows.take m) (closes.take m) k = trueRange highs lows closes k := by
  have hprev : k - 1 < m := by omega
  unfold trueRange
  rw [getElem!_take hk, getElem!_take hk, getElem!_take hprev]

theorem atrSeries_take (highs lows closes : List F) (period m : Nat) :
    atrSeries (highs.take m) (lows.take m) (closes.take m) period = (atrSeries highs lows closes period).take m := by
  unfold atrSeries
  rw [List.length_take]
  by_cases hp : period = 0 ∨ closes.length < period + 1
  · rw [if_pos hp, if_pos (by omega), take_allNan]
  · have hcond : (period = 0 ∨ min m closes.length < period + 1) ↔ min m closes.length < period + 1 := by omega
    rw [if_neg hp, if_congr hcond rfl rfl]
    refine take_warm (by omega) _ _ fun hm => ?_
    have hcount : m - period = m - (period + 1) + 1 := by omega
    have hrange : min m closes.length - (period + 1) = min (m - (period + 1)) (closes.length - (period + 1)) := by omega
    have hseed : (List.range' 1 period).map (trueRange (highs.take m) (lows.take m) (closes.take m)) =
        (List.range' 1 period).map (trueRange highs lows closes) := by
      refine List.map_congr_left fun k hk => trueRange_take highs lows closes ?_
      rw [List.mem_range'_1] at hk
      omega
    rw [hseed, hcount, hrange, ← List.map_take, List.take_scanl, take_range']
    congr 1
    refine scanl_congr fun i hi atrVal => ?_
    rw [List.mem_range'_1] at hi
    rw [trueRange_take highs lows closes (by omega)]

/-! ## Directional movement -/

variable [LT F] [DecidableLT F] [BEq F]

theorem AdxState.step_take (highs lows closes : List F) {period m j : Nat} (hj : j + 1 < m) (s : AdxState F) :
    AdxState.step (highs.take m) (lows.take m) (closes.take m) period s j =
      AdxState.step highs lows closes period s j := by
  have hprev : j < m := by omega
  have hplus : plusDm (highs.take m) (lows.take m) j = plusDm highs lows j := by
    unfold plusDm
    rw [getElem!_take hj, getElem!_take hprev, getElem!_take hprev, getElem!_take hj]
  have hminus : minusDm (highs.take m) (lows.take m) j = minusDm highs lows j := by
    unfold minusDm
    rw [getElem!_take hj, getElem!_take hprev, getElem!_take hprev, getElem!_take hj]
  unfold AdxState.step
  rw [hplus, hminus, trueRange_take highs lows closes hj]

omit [Mul F] [Div F] [BEq F] in
theorem AdxState.seed_take (highs lows closes : List F) {period m : Nat} (hm : period < m) :
    AdxState.seed (highs.take m) (lows.take m) (closes.take m) period = AdxState.seed highs lows closes period := by
  have hj : ∀ j ∈ List.range period, j + 1 < m := by
    intro j hj
    rw [List.mem_range] at hj
    omega
  unfold AdxState.seed
  congr 2
  · refine List.map_congr_left fun j hmem => ?_
    have hprev : j < m := Nat.lt_of_succ_lt (hj j hmem)
    unfold plusDm
    rw [getElem!_take (hj j hmem), getElem!_take hprev, getElem!_take hprev, getElem!_take (hj j hmem)]
  · refine List.map_congr_left fun j hmem => ?_
    have hprev : j < m := Nat.lt_of_succ_lt (hj j hmem)
    unfold minusDm
    rw [getElem!_take (hj j hmem), getElem!_take hprev, getElem!_take hprev, getElem!_take (hj j hmem)]
  · exact List.map_congr_left fun j hmem => trueRange_take highs lows closes (hj j hmem)

/-- One bar adds at most one index value, and there is no average before there are enough of them. -/
theorem AdxState.step_early (highs lows closes : List F) {period : Nat} {s : AdxState F} (j : Nat)
    (hnone : s.adxVal = none) (hlen : s.dxVals.length + 1 < period) :
    (s.step highs lows closes period j).adxVal = none ∧
      (s.step highs lows closes period j).dxVals.length ≤ s.dxVals.length + 1 := by
  unfold AdxState.step AdxState.takeUp
  simp only [hnone]
  split
  · rw [if_neg (by rw [List.length_append, List.length_singleton]; omega)]
    exact ⟨rfl, by rw [List.length_append, List.length_singleton]⟩
  · rw [if_neg (show ¬period ≤ s.dxVals.length by omega)]
    exact ⟨rfl, Nat.le_succ _⟩

theorem adx_early (highs lows closes : List F) {period : Nat} {s : AdxState F} (js : List Nat)
    (hnone : s.adxVal = none) (hlen : s.dxVals.length + js.length < period) :
    loopValues (AdxState.step highs lows closes period) (fun s _ => s.adxVal) s js = allNan js.length := by
  induction js generalizing s with
  | nil => rfl
  | cons j js ih =>
    rw [List.length_cons] at hlen
    have hlt : s.dxVals.length + 1 < period := by omega
    obtain ⟨hnext, hle⟩ := s.step_early highs lows closes j hnone hlt
    have hrest : (AdxState.step highs lows closes period s j).dxVals.length + js.length < period := by omega
    rw [loopValues, hnext, ih hnext hrest]
    rfl

theorem adxSeries_take (highs lows closes : List F) (period m : Nat) :
    adxSeries (highs.take m) (lows.take m) (closes.take m) period = (adxSeries highs lows closes period).take m := by
  unfold adxSeries
  rw [List.length_take]
  by_cases hp : period = 0 ∨ closes.length < period * 2 + 1
  · rw [if_pos hp, if_pos (by omega), take_allNan]
  · rw [if_neg hp]
    dsimp only
    rw [take_allNan_append, loopValues_take, take_range']
    by_cases hm : m < period * 2 + 1
    · -- too few bars for an average, so the loop would not write one
      rw [if_pos (by omega), adx_early highs lows closes _ rfl (by
        rw [List.length_range', AdxState.seed, List.length_nil]
        omega), allNan_append, List.length_range']
      congr 1
      omega
    · have hrange : min m closes.length - 1 - period = min (m - (period + 1)) (closes.length - 1 - period) := by omega
      have hall : min m (period + 1) = period + 1 := by omega
      rw [if_neg (by omega), hall, hrange, AdxState.seed_take highs lows closes (by omega)]
      congr 1
      refine loopValues_congr (fun j hj s => ?_) fun _ _ _ => rfl
      rw [List.mem_range'_1] at hj
      exact AdxState.step_take highs lows closes (by omega) s

end

/-! ## Bands and channels -/

section

variable [Inhabited F] [NatCast F] [Add F] [Sub F] [Mul F] [Div F]

omit [Inhabited F] in
theorem bbAt_take (sqrt : F → F) (closes : List F) (period : Nat) (mult sum : F) {m i : Nat} (hi : i < m) :
    bbAt sqrt (closes.take m) period mult sum i = bbAt sqrt closes period mult sum i := by
  unfold bbAt
  rw [List.take_take, Nat.min_eq_left (by omega)]

theorem bbSeries_take (sqrt : F → F) (closes : List F) (period : Nat) (mult : F) (m : Nat) :
    bbSeries sqrt (closes.take m) period mult = (bbSeries sqrt closes period mult).take m := by
  unfold bbSeries
  by_cases hp : period = 0
  · rw [if_pos hp, if_pos hp, take_allNan, List.length_take]
  · rw [if_neg hp, if_neg hp, loopValues_take, take_range_length]
    refine loopValues_congr (fun i hi sum => ?_) fun i hi sum => ?_
    · exact slide_take (lt_of_mem_range_take hi) sum
    · rw [bbAt_take sqrt closes period mult sum (lt_of_mem_range_take hi)]

end

section

variable [Inhabited F] [LE F] [DecidableLE F]

/-- The indices in the deques are below `m`. -/
def Deques.Below (m : Nat) (s : Deques) : Prop := (∀ i ∈ s.maxDq, i < m) ∧ ∀ i ∈ s.minDq, i < m

theorem moveDeque_below {beaten : Nat → Nat → Bool} {period i m : Nat} {dq : List Nat} (hi : i < m)
    (hdq : ∀ k ∈ dq, k < m) : ∀ k ∈ moveDeque beaten period dq i, k < m := by
  intro k hk
  rcases mem_of_mem_moveDeque hk with hk | rfl
  · exact hdq k hk
  · exact hi

theorem rdropWhile_congr {α : Type} {p q : α → Bool} {l : List α} (h : ∀ a ∈ l, p a = q a) :
    l.rdropWhile p = l.rdropWhile q := by
  induction l using List.reverseRecOn with
  | nil => rfl
  | append_singleton l a ih =>
    rw [List.rdropWhile_concat, List.rdropWhile_concat, h a (by simp), ih fun b hb => h b (by simp [hb])]

theorem Deques.step_take (highs lows : List F) {period m i : Nat} {s : Deques} (hi : i < m) (hs : s.Below m) :
    Deques.step (highs.take m) (lows.take m) period s i = Deques.step highs lows period s i ∧
      (Deques.step highs lows period s i).Below m := by
  have hmax : s.maxDq.rdropWhile (fun back => decide ((highs.take m)[back]! ≤ (highs.take m)[i]!)) =
      s.maxDq.rdropWhile fun back => decide (highs[back]! ≤ highs[i]!) :=
    rdropWhile_congr fun back hback => by rw [getElem!_take (hs.1 back hback), getElem!_take hi]
  have hmin : s.minDq.rdropWhile (fun back => decide ((lows.take m)[i]! ≤ (lows.take m)[back]!)) =
      s.minDq.rdropWhile fun back => decide (lows[i]! ≤ lows[back]!) :=
    rdropWhile_congr fun back hback => by rw [getElem!_take (hs.2 back hback), getElem!_take hi]
  constructor
  · unfold Deques.step moveDeque
    rw [hmax, hmin]
  · constructor
    · rw [Deques.step_maxDq]
      exact moveDeque_below hi hs.1
    · rw [Deques.step_minDq]
      exact moveDeque_below hi hs.2

omit [LE F] [DecidableLE F] in
theorem donchianAt_take (highs lows : List F) {m : Nat} {s : Deques} (hs : s.Below m) :
    donchianAt (highs.take m) (lows.take m) s = donchianAt highs lows s := by
  obtain ⟨maxDq, minDq⟩ := s
  unfold donchianAt
  rcases minDq with _ | ⟨lowest, minDq⟩
  · rfl
  · rcases maxDq with _ | ⟨highest, maxDq⟩
    · rfl
    · have hlow : (lows.take m)[lowest]! = lows[lowest]! := getElem!_take (hs.2 lowest List.mem_cons_self)
      have hhigh : (highs.take m)[highest]! = highs[highest]! := getElem!_take (hs.1 highest List.mem_cons_self)
      simp only [List.head?_cons, hlow, hhigh]

theorem donchianSeries_take (highs lows : List F) (period m : Nat) :
    donchianSeries (highs.take m) (lows.take m) period = (donchianSeries highs lows period).take m := by
  unfold donchianSeries
  by_cases hp : period = 0
  · rw [if_pos hp, if_pos hp, take_allNan, List.length_take]
  · rw [if_neg hp, if_neg hp, loopValues_take, take_range_length]
    refine loopValues_congr_of (I := Deques.Below m) ⟨by simp, by simp⟩ (fun i hi s hs => ?_) fun i hi s hs => ?_
    · exact Deques.step_take highs lows (lt_of_mem_range_take hi) hs
    · rw [donchianAt_take highs lows hs]

end

/-! ## All of them -/

theorem take_bandsOf (values : List (Option (BandOf F))) (m : Nat) :
    (bandsOf values).take m = bandsOf (values.take m) := by
  simp only [bandsOf, IndicatorSeries.take, List.map_take]

theorem take_channelOf (values : List (Option (F × F))) (m : Nat) :
    (channelOf values).take m = channelOf (values.take m) := by
  simp only [channelOf, IndicatorSeries.take, List.map_take]

section

variable [Inhabited F] [NatCast F] [Add F] [Sub F] [Mul F] [Div F] [Max F] [FloatFns F]

theorem keltnerSeries_take (highs lows closes : List F) (period : Nat) (mult : F) (m : Nat) :
    keltnerSeries (highs.take m) (lows.take m) (closes.take m) period mult =
      (keltnerSeries highs lows closes period mult).take m := by
  unfold keltnerSeries
  rw [emaSeries_take, atrSeries_take, List.take_zipWith]

variable [Neg F] [LT F] [DecidableLT F] [LE F] [DecidableLE F] [BEq F]

/-- No value of an indicator depends on a later bar. -/
theorem compute_take (sqrt : F → F) (series : TfSeries F) (key : IndicatorKey) (m : Nat) :
    compute sqrt (series.take m) key = (compute sqrt series key).take m := by
  rcases key with ⟨tf, kind, period, multX100⟩
  rcases kind with _ | _ | _ | _ | _ | _ | _ | _
  · exact congrArg IndicatorSeries.single (smaSeries_take series.close period m)
  · exact congrArg IndicatorSeries.single (emaSeries_take series.close period m)
  · exact congrArg IndicatorSeries.single (rsiSeries_take series.close period m)
  · exact congrArg IndicatorSeries.single (atrSeries_take series.high series.low series.close period m)
  · exact congrArg IndicatorSeries.single (adxSeries_take series.high series.low series.close period m)
  · rw [compute, compute, take_bandsOf]
    exact congrArg bandsOf (bbSeries_take sqrt series.close period _ m)
  · rw [compute, compute, take_channelOf]
    exact congrArg channelOf (donchianSeries_take series.high series.low period m)
  · rw [compute, compute, take_bandsOf]
    exact congrArg bandsOf (keltnerSeries_take series.high series.low series.close period _ m)

end

end Calc

end AutoTrader.Sim
