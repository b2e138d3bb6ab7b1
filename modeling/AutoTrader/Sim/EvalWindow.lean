import AutoTrader.Lib.Fallible
import AutoTrader.Sim.Series
import Mathlib.Data.List.DropRight
import Mathlib.Order.Bounds.Defs

/-!
# The window of a dataset

`evaluation_window`: `earliestFrom` is the first midnight with enough bars before it, `Dataset.new` takes a
period from midnight on exactly if it does not begin before that one, and the bars of a dataset are the last
ones before the period, as many as are needed to warm up, and all bars of the period.
-/

namespace AutoTrader.Sim

variable {F : Type} {bars : List Bar} {w : Nat} {x m «from» «to» : Int}

/-- The bars are in the order of their times. -/
def Ascending (bars : List Bar) : Prop := bars.Pairwise fun a b => a.openTime < b.openTime

/-- The start of a day. -/
def IsMidnight (t : Int) : Prop := secsPerDay ∣ t

/-- The bars before a time. -/
def barsBefore (bars : List Bar) (t : Int) : List Bar := bars.filter fun b => b.openTime < t

/-- The bars that open in `[from, to)`. -/
def barsWithin (bars : List Bar) («from» «to» : Int) : List Bar :=
  bars.filter fun b => «from» ≤ b.openTime ∧ b.openTime < «to»

theorem Ascending.turns (hs : Ascending bars) (x : Int) :
    Lib.Turns (fun b => decide (b.openTime < x)) bars := by
  refine hs.imp fun {a b} hab => ?_
  rw [decide_eq_true_eq, decide_eq_true_eq]
  omega

theorem Ascending.partitionPoint (hs : Ascending bars) (x : Int) :
    Lib.partitionPoint (fun b => decide (b.openTime < x)) bars = (barsBefore bars x).length :=
  Lib.partitionPoint_eq (hs.turns x)

/-- There are `w` bars before an instant if the `w`-th one is. -/
theorem Ascending.le_before_iff (hs : Ascending bars) (hw : 1 ≤ w) :
    w ≤ (barsBefore bars x).length ↔ ∃ b, bars[w - 1]? = some b ∧ b.openTime < x := by
  rw [← hs.partitionPoint, ← Nat.sub_add_cancel hw, Nat.add_sub_cancel, Nat.succ_le_iff,
    Lib.lt_partitionPoint_iff (hs.turns x)]
  simp only [decide_eq_true_eq]

/-! ## The first midnight -/

theorem earliestFrom_eq (hw : 1 ≤ w) :
    earliestFrom bars w = bars[w - 1]?.map fun last => (last.openTime / secsPerDay + 1) * secsPerDay := by
  rw [earliestFrom, if_neg (by omega)]

theorem earliestFrom_isSome (hw : 1 ≤ w) : (∃ m, earliestFrom bars w = some m) ↔ w ≤ bars.length := by
  rw [earliestFrom_eq hw, ← Option.isSome_iff_exists, Option.isSome_map]
  simp
  omega

/-- The next midnight after an instant. -/
theorem midnight_after (t : Int) (hx : IsMidnight x) : t < x ↔ (t / secsPerDay + 1) * secsPerDay ≤ x := by
  obtain ⟨d, rfl⟩ := hx
  unfold secsPerDay
  omega

theorem before_iff (hs : Ascending bars) (hw : 1 ≤ w) (hm : earliestFrom bars w = some m) (hx : IsMidnight x) :
    w ≤ (barsBefore bars x).length ↔ m ≤ x := by
  rw [earliestFrom_eq hw] at hm
  obtain ⟨last, hlast, rfl⟩ := Option.map_eq_some_iff.mp hm
  rw [hs.le_before_iff hw, hlast, ← midnight_after last.openTime hx]
  simp

theorem earliestFrom_isLeast (hs : Ascending bars) (hw : 1 ≤ w) (hm : earliestFrom bars w = some m) :
    IsLeast {x | IsMidnight x ∧ w ≤ (barsBefore bars x).length} m := by
  have hmidnight : IsMidnight m := by
    rw [earliestFrom_eq hw] at hm
    obtain ⟨last, -, rfl⟩ := Option.map_eq_some_iff.mp hm
    exact Int.dvd_mul_left _ _
  exact ⟨⟨hmidnight, (before_iff hs hw hm hmidnight).mpr le_rfl⟩, fun x hx => (before_iff hs hw hm hx.1).mp hx.2⟩

/-! ## The bars of a dataset -/

/-- What `Dataset.new` checks before it counts the warm-up bars. -/
def PeriodChecks (dateOf : Int → Option String) (bars : List Bar) («from» «to» : Int) : Prop :=
  (dateOf «from»).isSome ∧ «to» ≠ -2 ^ 63 ∧ (dateOf («to» - 1)).isSome ∧
    (barsBefore bars «from»).length < (barsBefore bars «to»).length

variable {toYen : Int → F} {dateOf : Int → Option String} {d : Dataset F}

theorem epochSecsToDatetime_ok {secs : Int} {context date : String} :
    epochSecsToDatetime dateOf secs context = .ok date ↔ dateOf secs = some date := by
  unfold epochSecsToDatetime
  split <;> simp_all

theorem before_append_within (hs : Ascending bars) (h : «from» ≤ «to») :
    barsBefore bars «from» ++ barsWithin bars «from» «to» = barsBefore bars «to» := by
  have hsplit := congrArg (List.filter fun b : Bar => decide (b.openTime < «to»)) (hs.turns «from»).append
  rw [List.filter_append, List.filter_filter, List.filter_filter] at hsplit
  refine Eq.trans (congrArg₂ (· ++ ·) ?_ ?_) hsplit
  · refine List.filter_congr fun b _ => ?_
    rw [← Bool.decide_and, decide_eq_decide]
    omega
  · refine List.filter_congr fun b _ => ?_
    rw [← decide_not, ← Bool.decide_and, decide_eq_decide]
    omega

/-- A dataset is made if its period passes the checks and there are enough bars before it. -/
theorem new_ok_iff (hs : Ascending bars) :
    Dataset.new toYen dateOf bars «from» «to» w = .ok d ↔
      PeriodChecks dateOf bars «from» «to» ∧ w ≤ (barsBefore bars «from»).length ∧
      d = .ofBars toYen ((barsBefore bars «to»).drop ((barsBefore bars «from»).length - w)) w := by
  have htake := Lib.take_partitionPoint (hs.turns «to»)
  rw [hs.partitionPoint] at htake
  unfold Dataset.new PeriodChecks
  simp only [hs.partitionPoint, Lib.bind_eq_ok, epochSecsToDatetime_ok, Lib.refuseIf_eq_ok, htake, not_le, not_lt,
    Option.isSome_iff_exists]
  constructor
  · rintro ⟨a, hfrom, -, hto, b, hlast, -, hperiod, -, hwarm, hd⟩
    exact ⟨⟨⟨a, hfrom⟩, hto, ⟨b, hlast⟩, hperiod⟩, hwarm, (Except.ok.inj hd).symm⟩
  · rintro ⟨⟨⟨a, hfrom⟩, hto, ⟨b, hlast⟩, hperiod⟩, hwarm, rfl⟩
    exact ⟨a, hfrom, (), hto, b, hlast, (), hperiod, (), hwarm, rfl⟩

theorem new_bars (hs : Ascending bars) (h : Dataset.new toYen dateOf bars «from» «to» w = .ok d) :
    d.bars = (barsBefore bars «from»).rtake w ++ barsWithin bars «from» «to» ∧
      d.evalBars = barsWithin bars «from» «to» := by
  obtain ⟨⟨-, -, -, hperiod⟩, hwarm, rfl⟩ := (new_ok_iff hs).mp h
  have hle : «from» ≤ «to» := by
    by_contra hlt
    have hsub : (barsBefore bars «to»).length ≤ (barsBefore bars «from»).length := by
      refine (List.monotone_filter_right bars fun b hb => ?_).length_le
      rw [decide_eq_true_eq] at hb ⊢
      omega
    omega
  have hbars : (barsBefore bars «to»).drop ((barsBefore bars «from»).length - w) =
      (barsBefore bars «from»).rtake w ++ barsWithin bars «from» «to» := by
    rw [← before_append_within hs hle, List.drop_append_of_le_length (by omega)]
    rfl
  refine ⟨hbars, ?_⟩
  show ((barsBefore bars «to»).drop _).drop w = _
  rw [hbars, List.drop_left' (by rw [List.rtake, List.length_drop]; omega)]

theorem evaluation_window (hs : Ascending bars) (hw : 1 ≤ w) :
    ((∃ m, earliestFrom bars w = some m) ↔ w ≤ bars.length) ∧
    (∀ m, earliestFrom bars w = some m → IsLeast {x | IsMidnight x ∧ w ≤ (barsBefore bars x).length} m ∧
      ∀ «from» «to», IsMidnight «from» → PeriodChecks dateOf bars «from» «to» →
        ((∃ d, Dataset.new toYen dateOf bars «from» «to» w = .ok d) ↔ m ≤ «from»)) ∧
    ∀ «from» «to» d, Dataset.new toYen dateOf bars «from» «to» w = .ok d →
      d.bars = (barsBefore bars «from»).rtake w ++ barsWithin bars «from» «to» ∧
      d.evalBars = barsWithin bars «from» «to» := by
  refine ⟨earliestFrom_isSome hw, fun m hm => ⟨earliestFrom_isLeast hs hw hm, ?_⟩, fun _ _ _ h => new_bars hs h⟩
  intro «from» «to» hmidnight hchecks
  rw [← before_iff hs hw hm hmidnight]
  constructor
  · rintro ⟨d, hd⟩
    exact ((new_ok_iff hs).mp hd).2.1
  · exact fun hwarm => ⟨_, (new_ok_iff hs).mpr ⟨hchecks, hwarm, rfl⟩⟩

/-- The last bar of one day and the first of the next. -/
def sampleTwoDays : List Bar := [.flat 86100 150000 150010, .flat 86400 150100 150110]

/-- The dates of the first two days. -/
def sampleDateOf (t : Int) : Option String :=
  if 0 ≤ t ∧ t < 86400 then some "1970-01-01"
  else if 86400 ≤ t ∧ t < 172800 then some "1970-01-02"
  else none

theorem sampleTwoDays_window :
    ((∃ m, earliestFrom sampleTwoDays 1 = some m) ↔ 1 ≤ sampleTwoDays.length) ∧
    (∀ m, earliestFrom sampleTwoDays 1 = some m →
      IsLeast {x | IsMidnight x ∧ 1 ≤ (barsBefore sampleTwoDays x).length} m ∧
      ∀ «from» «to», IsMidnight «from» → PeriodChecks sampleDateOf sampleTwoDays «from» «to» →
        ((∃ d, Dataset.new (fun v => (v : Rat) / 2000) sampleDateOf sampleTwoDays «from» «to» 1 = .ok d) ↔
          m ≤ «from»)) ∧
    ∀ «from» «to» d, Dataset.new (fun v => (v : Rat) / 2000) sampleDateOf sampleTwoDays «from» «to» 1 = .ok d →
      d.bars = (barsBefore sampleTwoDays «from»).rtake 1 ++ barsWithin sampleTwoDays «from» «to» ∧
      d.evalBars = barsWithin sampleTwoDays «from» «to» :=
  evaluation_window (by unfold Ascending; decide) (by decide)

end AutoTrader.Sim
