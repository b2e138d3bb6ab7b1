import AutoTrader.Lib.Drawdown
import AutoTrader.Lib.Signed64
import AutoTrader.Sim.Eval
import Mathlib.Algebra.Order.Ring.Int

/-!
# The drawdown of a run

`maxDrawdown` is the loop as a build runs it in which signed words wrap around. A build with overflow checks panics
where a sum or a difference is not a word. `drawdownIn_mirrors` says of both what the loop finds as far as everything
is a word, and `inRange_of_checked` that the checked one finds nothing otherwise.
-/

namespace AutoTrader.Sim

open Lib (Fits Running falls level)

/-- The two ways of adding words: wrapping around, or panicking. -/
inductive Build where
  | wrapping
  | checked
  deriving DecidableEq

/-- The word of an exact result; none is a panic. -/
def Build.word (build : Build) (exact : Int) (word : Int64) : Option Int64 :=
  match build with
  | .wrapping => some word
  | .checked => if -2 ^ 63 ≤ exact ∧ exact < 2 ^ 63 then some word else none

/-- The sum of two words in a build. -/
def Build.add (build : Build) (a b : Int64) : Option Int64 := build.word (a.toInt + b.toInt) (a + b)

/-- The difference of two words in a build. -/
def Build.sub (build : Build) (a b : Int64) : Option Int64 := build.word (a.toInt - b.toInt) (a - b)

/-- A trade enters the drawdown loop. -/
def Drawdown.add (build : Build) (s : Drawdown) (pnlMilli : Int64) : Option Drawdown := do
  let cumulative ← build.add s.cumulative pnlMilli
  let peak := max s.peak cumulative
  let dd ← build.sub peak cumulative
  return ⟨peak, cumulative, max s.maxDd dd⟩

/-- The drawdown loop over the trades. -/
def drawdownIn (build : Build) (trades : List SimTrade) : Option Drawdown :=
  trades.foldlM (fun s trade => s.add build trade.pnlMilli) ⟨0, 0, 0⟩

/-- The drawdown that a build computes. -/
def maxDrawdownIn (build : Build) (trades : List SimTrade) : Option Int64 :=
  (drawdownIn build trades).map Drawdown.maxDd

/-- The loop that wraps around is the one of the evaluation. -/
theorem maxDrawdownIn_wrapping (trades : List SimTrade) : maxDrawdownIn .wrapping trades = some (maxDrawdown trades) :=
  congrArg (Option.map Drawdown.maxDd) (List.foldlM_pure (m := Option) ..)

/-! ## Words and integers -/

/-- The state of the loop, as integers. -/
structure Mirrors (s : Drawdown) (r : Running Int) : Prop where
  peak : s.peak.toInt = r.peak
  now : s.cumulative.toInt = r.now
  worst : s.maxDd.toInt = r.worst

/-- The level and the fall to it are words. -/
def InWords (r : Running Int) : Prop := Fits r.now ∧ r.peak - r.now < 2 ^ 63

theorem Build.word_of_fits {exact : Int} (h : Fits exact) (build : Build) (word : Int64) :
    build.word exact word = some word := by
  rcases build with _ | _
  · rfl
  · exact if_pos h

theorem Build.fits_of_checked {exact : Int} {word result : Int64} (h : Build.checked.word exact word = some result) :
    Fits exact ∧ result = word := by
  obtain ⟨hfits, hsome⟩ := Option.ite_none_right_eq_some.mp h
  exact ⟨hfits, (Option.some.inj hsome).symm⟩

section

variable {s : Drawdown} {r : Running Int} {x : Int64}

theorem Mirrors.toInt_sum (h : Mirrors s r) (hw : Fits (r.next x.toInt).now) :
    (s.cumulative + x).toInt = (r.next x.toInt).now ∧
      (max s.peak (s.cumulative + x)).toInt = (r.next x.toInt).peak := by
  have hsum : (s.cumulative + x).toInt = (r.next x.toInt).now := by
    rw [Lib.toInt_add_of_fits (by rw [h.now]; exact hw), h.now]
    rfl
  refine ⟨hsum, ?_⟩
  rw [Lib.toInt_max, hsum, h.peak]
  rfl

theorem fits_of_nonneg {d : Int} (h : 0 ≤ d) (hlt : d < 2 ^ 63) : Fits d :=
  ⟨le_trans (by decide) h, hlt⟩

/-- The fall from the peak to the level is a word. -/
theorem fits_fall (hw : InWords (r.next x.toInt)) : Fits ((r.next x.toInt).peak - (r.next x.toInt).now) :=
  fits_of_nonneg (sub_nonneg.mpr (le_max_right _ _)) hw.2

theorem Mirrors.add (h : Mirrors s r) (hw : InWords (r.next x.toInt)) (build : Build) :
    ∃ s', s.add build x = some s' ∧ Mirrors s' (r.next x.toInt) := by
  obtain ⟨hnow, hpeak⟩ := h.toInt_sum hw.1
  have hsum : Fits (s.cumulative.toInt + x.toInt) := by
    rw [h.now]
    exact hw.1
  have hfall : Fits ((max s.peak (s.cumulative + x)).toInt - (s.cumulative + x).toInt) := by
    rw [hpeak, hnow]
    exact fits_fall hw
  refine ⟨⟨max s.peak (s.cumulative + x), s.cumulative + x,
    max s.maxDd (max s.peak (s.cumulative + x) - (s.cumulative + x))⟩, ?_, hpeak, hnow, ?_⟩
  · show ((build.word _ _).bind fun c => (build.word ((max s.peak c).toInt - c.toInt) _).bind _) = _
    rw [Build.word_of_fits hsum, Option.bind_some, Build.word_of_fits hfall, Option.bind_some]
    rfl
  · rw [Lib.toInt_max, Lib.toInt_sub_of_fits hfall, hpeak, hnow, h.worst]
    rfl

theorem Mirrors.inWords (h : Mirrors s r) {s' : Drawdown} (hs : s.add .checked x = some s') :
    InWords (r.next x.toInt) := by
  obtain ⟨cumulative, hsum, hs⟩ := Option.bind_eq_some_iff.mp hs
  obtain ⟨hfits, rfl⟩ := Build.fits_of_checked hsum
  obtain ⟨dd, hdd, -⟩ := Option.bind_eq_some_iff.mp hs
  rw [h.now] at hfits
  obtain ⟨hnow, hpeak⟩ := h.toInt_sum hfits
  have hfall := (Build.fits_of_checked hdd).1
  rw [hnow, hpeak] at hfall
  exact ⟨hfits, hfall.2⟩

end

/-! ## Runs -/

/-- The profits of the trades. -/
def milli (trades : List SimTrade) : List Int := trades.map fun trade => trade.pnlMilli.toInt

/-- The sum of every first part of the profits is a word, and so is every fall from one to a later one. -/
structure InRange (profits : List Int) : Prop where
  level : ∀ k ≤ profits.length, Fits (level profits k)
  fall : ∀ d ∈ falls profits, d < 2 ^ 63

theorem inRange_nil : InRange [] := by
  refine ⟨fun k hk => ?_, fun d hd => ?_⟩
  · obtain rfl : k = 0 := by simpa using hk
    exact ⟨by decide, by decide⟩
  · have hle : d ≤ 0 := (Running.tracks_start (0 : Int)).worst.2 hd
    omega

theorem inRange_concat (xs : List Int) (x : Int) :
    InRange (xs ++ [x]) ↔ InRange xs ∧ InWords ((xs.foldl Running.next (Running.start 0)).next x) := by
  have hxs := Running.tracks_run 0 xs
  have hnext := hxs.next x
  have hnow : ((xs.foldl Running.next (Running.start 0)).next x).now = Lib.level (xs ++ [x]) (xs.length + 1) := by
    rw [hnext.now, Lib.level_concat, zero_add, List.sum_append, List.sum_singleton]
  generalize xs.foldl Running.next (Running.start 0) = r at hxs hnext hnow
  constructor
  · intro h
    refine ⟨⟨fun k hk => ?_, fun d hd => h.fall d (Lib.falls_append hd [x])⟩, ?_, ?_⟩
    · rw [← Lib.level_append hk [x]]
      exact h.level k (by simp only [List.length_append]; omega)
    · rw [hnow]
      exact h.level _ (by simp)
    · exact lt_of_le_of_lt (le_max_right _ _) (h.fall _ hnext.worst.1)
  · rintro ⟨h, hfits, hlt⟩
    refine ⟨fun k hk => ?_, fun d hd => ?_⟩
    · rcases Nat.lt_or_ge xs.length k with hlast | hle
      · obtain rfl : k = xs.length + 1 := by
          simp only [List.length_append, List.length_singleton] at hk
          omega
        rw [← hnow]
        exact hfits
      · rw [Lib.level_append hle]
        exact h.level k hle
    · exact lt_of_le_of_lt (hnext.worst.2 hd) (max_lt (h.fall _ hxs.worst.1) hlt)

theorem drawdownIn_concat (build : Build) (trades : List SimTrade) (trade : SimTrade) :
    drawdownIn build (trades ++ [trade]) = (drawdownIn build trades).bind fun s => s.add build trade.pnlMilli := by
  simp [drawdownIn, List.foldlM_append]

theorem drawdownIn_mirrors {trades : List SimTrade} (h : InRange (milli trades)) (build : Build) :
    ∃ s, drawdownIn build trades = some s ∧ Mirrors s ((milli trades).foldl Running.next (Running.start 0)) := by
  induction trades using List.reverseRecOn with
  | nil => exact ⟨_, rfl, rfl, rfl, rfl⟩
  | append_singleton trades trade ih =>
    rw [milli, List.map_append] at h
    obtain ⟨hpre, hw⟩ := (inRange_concat (milli trades) trade.pnlMilli.toInt).mp h
    obtain ⟨s, hs, hm⟩ := ih hpre
    obtain ⟨s', hs', hm'⟩ := hm.add hw build
    refine ⟨s', ?_, ?_⟩
    · rw [drawdownIn_concat, hs]
      exact hs'
    · rw [milli, List.map_append, List.map_singleton, List.foldl_concat]
      exact hm'

theorem inRange_of_checked {trades : List SimTrade} {s : Drawdown} (hs : drawdownIn .checked trades = some s) :
    InRange (milli trades) := by
  induction trades using List.reverseRecOn generalizing s with
  | nil => exact inRange_nil
  | append_singleton trades trade ih =>
    rw [drawdownIn_concat] at hs
    obtain ⟨s₀, hs₀, hadd⟩ := Option.bind_eq_some_iff.mp hs
    obtain ⟨s₁, hs₁, hm⟩ := drawdownIn_mirrors (ih hs₀) .checked
    obtain rfl : s₀ = s₁ := Option.some.inj (hs₀.symm.trans hs₁)
    rw [milli, List.map_append]
    exact (inRange_concat _ _).mpr ⟨ih hs₀, hm.inWords hadd⟩

end AutoTrader.Sim
