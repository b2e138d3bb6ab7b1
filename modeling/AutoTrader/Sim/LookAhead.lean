import AutoTrader.Sim.CalcPrefix
import AutoTrader.Sim.Completed
import AutoTrader.Sim.Ctx

/-!
# No look-ahead

Two datasets whose windows agree up to bar `t` show a script the same at that bar (`no_look_ahead`): the same bars
of every timeframe have completed and no later bar is part of them, the indicators have the same values there,
and a `Ctx` gives the same answer to every query. Nothing is assumed of the floating-point operations.
-/

namespace AutoTrader.Sim

open Calc (FloatFns)
open Lib (getElem!_take)

variable {F : Type} {tf : Tf}

/-! ## The series of the bars up to one -/

/-- Bar `idx` of a timeframe is made of all bars of a bucket, and none of them comes after bar `t`. -/
def Dataset.MadeUpTo (toYen : Int → F) (t : Nat) (tf : Tf) (idx : Nat) (d : Dataset F) : Prop :=
  ∃ b rest u, u = Bucket.of tf b rest ∧
    (d.series tf).opening[idx]? = some (toYen u.openMid2) ∧ (d.series tf).high[idx]? = some (toYen u.highMid2) ∧
    (d.series tf).low[idx]? = some (toYen u.lowMid2) ∧ (d.series tf).close[idx]? = some (toYen u.closeMid2) ∧
    (d.series tf).endTime[idx]? = some (u.endTime tf) ∧
    barsIn tf u.bucket d.bars = b :: rest ∧ barsIn tf u.bucket (d.bars.take (t + 1)) = b :: rest

theorem take_aggregate (toYen : Int → F) {bars bars' : List Bar} {n : Nat}
    (h : (buckets tf bars).take n = (buckets tf bars').take n) :
    (aggregate toYen bars tf).take n = (aggregate toYen bars' tf).take n := by
  simp only [aggregate, TfSeries.take, ← List.map_take, h]

/-- The dataset of the bars up to one tells what has completed by then. -/
theorem ofBars_first (toYen : Int → F) {bars later : List Bar} {b : Bar} (hs : Ascending (bars ++ [b] ++ later))
    (hgrid : OnGrid (bars ++ [b] ++ later)) (w : Nat) (tf : Tf) :
    ∃ n, ((Dataset.ofBars toYen (bars ++ [b]) 0).completed tf)[bars.length]? = some n ∧
      ((Dataset.ofBars toYen (bars ++ [b] ++ later) w).completed tf)[bars.length]? = some n ∧
      ((Dataset.ofBars toYen (bars ++ [b] ++ later) w).series tf).take n =
        ((Dataset.ofBars toYen (bars ++ [b]) 0).series tf).take n ∧
      ∀ idx < n, (Dataset.ofBars toYen (bars ++ [b] ++ later) w).MadeUpTo toYen bars.length tf idx := by
  obtain ⟨n, hprefix, hall, hle, htake, hnever⟩ := completed_first hs hgrid tf
  have hs' : Ascending (bars ++ [b]) := (List.pairwise_append.mp hs).1
  have hb : (bars ++ [b])[bars.length]? = some b := by simp
  have hb' : (bars ++ [b] ++ later)[bars.length]? = some b := by
    rw [List.getElem?_append_left (by simp), hb]
  refine ⟨n, ?_, ?_, take_aggregate toYen htake, fun idx hidx => ?_⟩
  · show (completedCounts (bars ++ [b]) (aggregate toYen (bars ++ [b]) tf).endTime)[bars.length]? = some n
    rw [completedCounts_eq hs', List.getElem?_map, hb, Option.map_some]
    exact congrArg some hprefix
  · show (completedCounts (bars ++ [b] ++ later) (aggregate toYen (bars ++ [b] ++ later) tf).endTime)[bars.length]? =
      some n
    rw [completedCounts_eq hs, List.getElem?_map, hb', Option.map_some]
    exact congrArg some hall
  · obtain ⟨u, hu⟩ : ∃ u, (buckets tf (bars ++ [b]))[idx]? = some u :=
      ⟨_, List.getElem?_eq_getElem (by omega)⟩
    have hu' : (buckets tf (bars ++ [b] ++ later))[idx]? = some u := by
      rw [← List.getElem?_take_of_lt hidx, htake, List.getElem?_take_of_lt hidx, hu]
    have hmem : u ∈ (buckets tf (bars ++ [b])).take n := by
      refine List.mem_of_getElem? (i := idx) ?_
      rw [List.getElem?_take_of_lt hidx, hu]
    obtain ⟨b', rest, hof, hbars⟩ := madeOf_buckets (hs'.inOrder tf) (List.mem_of_getElem? hu)
    have hmap : ∀ {α : Type} (f : Bucket → α), ((buckets tf (bars ++ [b] ++ later)).map f)[idx]? = some (f u) := by
      intro α f
      rw [List.getElem?_map, hu', Option.map_some]
    refine ⟨b', rest, u, hof, hmap _, hmap _, hmap _, hmap _, hmap _, ?_, ?_⟩
    · show barsIn tf u.bucket (bars ++ [b] ++ later) = b' :: rest
      rw [barsIn_append, hbars, barsIn_eq_nil fun x hx => hnever u hmem x hx, List.append_nil]
    · show barsIn tf u.bucket ((bars ++ [b] ++ later).take (bars.length + 1)) = b' :: rest
      rw [List.take_left' (by simp), hbars]

/-- The bars of a dataset are some of those it was made of, and the rest of it is made of them. -/
theorem ascending_of_new {toYen : Int → F} {dateOf : Int → Option String} {allBars : List Bar} {«from» «to» : Int}
    {w : Nat} {d : Dataset F} (hs : Ascending allBars) (hgrid : OnGrid allBars)
    (h : Dataset.new toYen dateOf allBars «from» «to» w = .ok d) :
    Ascending d.bars ∧ OnGrid d.bars ∧ d = .ofBars toYen d.bars w := by
  obtain ⟨-, -, rfl⟩ := (new_ok_iff hs).mp h
  have hsub : ((barsBefore allBars «to»).drop ((barsBefore allBars «from»).length - w)).Sublist allBars :=
    (List.drop_sublist _ _).trans List.filter_sublist
  exact ⟨hs.sublist hsub, fun b hb => hgrid b (hsub.mem hb), rfl⟩

theorem take_append_getElem_append {bars : List Bar} {t : Nat} (ht : t < bars.length) :
    bars.take t ++ [bars[t]] ++ bars.drop (t + 1) = bars := by
  rw [List.take_append_getElem ht, List.take_append_drop]

/-! ## Reading at completed bars -/

namespace Ctx

variable {n : Nat}

theorem fieldOf_take (s : TfSeries F) (field : OhlcField) : fieldOf (s.take n) field = (fieldOf s field).take n := by
  rcases field with _ | _ | _ | _ <;> rfl

section

variable [FloatFns F]

theorem readSingle_take (s : IndicatorSeries (Option F)) {idx : Nat} (h : idx < n) :
    readSingle (s.take n) idx = readSingle s idx := by
  rcases s with values | ⟨lower, middle, upper⟩ | ⟨lower, upper⟩
  · simp only [readSingle, IndicatorSeries.take, getElem!_take h]
  · rfl
  · rfl

theorem readChannel_take (s : IndicatorSeries (Option F)) {idx : Nat} (h : idx < n) :
    readChannel (s.take n) idx = readChannel s idx := by
  rcases s with values | ⟨lower, middle, upper⟩ | ⟨lower, upper⟩
  · rfl
  · rfl
  · simp only [readChannel, IndicatorSeries.take, getElem!_take h]

theorem readBand_take (s : IndicatorSeries (Option F)) {idx : Nat} (h : idx < n) :
    readBand (s.take n) idx = readBand s idx := by
  rcases s with values | ⟨lower, middle, upper⟩ | ⟨lower, upper⟩
  · rfl
  · simp only [readBand, IndicatorSeries.take, getElem!_take h]
  · rfl

end

/-- What is read only at bars that have completed. -/
theorem atIndex_congr {c₁ c₂ : Ctx F} {read₁ read₂ : Nat → Answer F}
    (h₁ : (c₁.dataset.completed tf)[c₁.t]? = some n) (h₂ : (c₂.dataset.completed tf)[c₂.t]? = some n)
    (hread : ∀ idx < n, read₁ idx = read₂ idx) (shift : Nat) :
    c₁.atIndex tf shift read₁ = c₂.atIndex tf shift read₂ := by
  unfold atIndex resolveIndex
  rw [List.getElem!_eq_getElem?_getD, List.getElem!_eq_getElem?_getD, h₁, h₂]
  by_cases hshift : n ≤ shift
  · simp [hshift]
  · have hlt : n - 1 - shift < n := by omega
    simp [hshift, hread _ hlt]

end Ctx

/-! ## What is known at a bar -/

section

variable [Inhabited F] [NatCast F] [Add F] [Sub F] [Mul F] [Div F] [Max F] [Neg F] [LT F] [DecidableLT F] [LE F]
  [DecidableLE F] [BEq F] [FloatFns F]

/-- Of the bars of a timeframe, `n` have completed at bar `t` of either dataset, and these are the same. -/
structure SameSeries (sqrt : F → F) (t : Nat) (d₁ d₂ : Dataset F) (tf : Tf) (n : Nat) : Prop where
  completed₁ : (d₁.completed tf)[t]? = some n
  completed₂ : (d₂.completed tf)[t]? = some n
  series : (d₁.series tf).take n = (d₂.series tf).take n
  indicators : ∀ key,
    (Calc.compute sqrt (d₁.series tf) key).take n = (Calc.compute sqrt (d₂.series tf) key).take n

theorem SameSeries.of_first {sqrt : F → F} {t n : Nat} {d₁ d₂ p : Dataset F}
    (h₁ : (d₁.completed tf)[t]? = some n) (h₂ : (d₂.completed tf)[t]? = some n)
    (hs₁ : (d₁.series tf).take n = (p.series tf).take n) (hs₂ : (d₂.series tf).take n = (p.series tf).take n) :
    SameSeries sqrt t d₁ d₂ tf n := by
  refine ⟨h₁, h₂, hs₁.trans hs₂.symm, fun key => ?_⟩
  rw [← Calc.compute_take, ← Calc.compute_take, hs₁, hs₂]

namespace Ctx

variable [IntCast F]

/-- Two contexts at the same bar of datasets that are the same so far. -/
structure Alike (fns : CtxFns F) (c₁ c₂ : Ctx F) : Prop where
  t : c₁.t = c₂.t
  position : c₁.position = c₂.position
  entryPriceMilli : c₁.entryPriceMilli = c₂.entryPriceMilli
  barsHeld : c₁.barsHeld = c₂.barsHeld
  bar : c₁.bar = c₂.bar
  series : ∀ tf, ∃ n, SameSeries fns.sqrt c₁.t c₁.dataset c₂.dataset tf n

variable {fns : CtxFns F} {c₁ c₂ : Ctx F}

omit [IntCast F] in
theorem Alike.atIndex (h : Alike fns c₁ c₂) {read₁ read₂ : Nat → Answer F} (shift : Nat)
    (hread : ∀ n, SameSeries fns.sqrt c₁.t c₁.dataset c₂.dataset tf n → ∀ idx < n, read₁ idx = read₂ idx) :
    c₁.atIndex tf shift read₁ = c₂.atIndex tf shift read₂ := by
  obtain ⟨n, hn⟩ := h.series tf
  have h₂ := hn.completed₂
  rw [h.t] at h₂
  exact atIndex_congr hn.completed₁ h₂ (hread n hn) shift

omit [IntCast F] in
theorem Alike.ohlc (h : Alike fns c₁ c₂) (tf : Tf) (shift : Nat) (field : OhlcField) :
    (c₁.atIndex tf shift fun idx => .float (fieldOf (c₁.dataset.series tf) field)[idx]!) =
      c₂.atIndex tf shift fun idx => .float (fieldOf (c₂.dataset.series tf) field)[idx]! := by
  refine h.atIndex shift fun n hn idx hidx => ?_
  have hfield := congrArg (fieldOf · field) hn.series
  simp only [fieldOf_take] at hfield
  rw [← getElem!_take hidx, hfield, getElem!_take hidx]

section

variable (h : Alike fns c₁ c₂) (tf : Tf) (kind : IndicatorKind) (period multX100 shift : Nat)

include h

omit [IntCast F] in
theorem Alike.single :
    c₁.atIndex tf shift (readSingle (c₁.indicator fns ⟨tf, kind, period, multX100⟩)) =
      c₂.atIndex tf shift (readSingle (c₂.indicator fns ⟨tf, kind, period, multX100⟩)) := by
  refine h.atIndex shift fun n hn idx hidx => ?_
  rw [← readSingle_take _ hidx, indicator, hn.indicators, readSingle_take _ hidx, indicator]

omit [IntCast F] in
theorem Alike.channel :
    c₁.atIndex tf shift (readChannel (c₁.indicator fns ⟨tf, kind, period, multX100⟩)) =
      c₂.atIndex tf shift (readChannel (c₂.indicator fns ⟨tf, kind, period, multX100⟩)) := by
  refine h.atIndex shift fun n hn idx hidx => ?_
  rw [← readChannel_take _ hidx, indicator, hn.indicators, readChannel_take _ hidx, indicator]

omit [IntCast F] in
theorem Alike.band :
    c₁.atIndex tf shift (readBand (c₁.indicator fns ⟨tf, kind, period, multX100⟩)) =
      c₂.atIndex tf shift (readBand (c₂.indicator fns ⟨tf, kind, period, multX100⟩)) := by
  refine h.atIndex shift fun n hn idx hidx => ?_
  rw [← readBand_take _ hidx, indicator, hn.indicators, readBand_take _ hidx, indicator]

end

/-- They answer every query alike. -/
theorem Alike.ask (h : Alike fns c₁ c₂) (query : Query F) : c₁.ask fns query = c₂.ask fns query := by
  rcases query with _ | _ | _ | _ | _ | _ | _ | _ | _ | _ | _ | _ | _ | _ | _ | _ | _
  · simp only [Ctx.ask, h.position]
  · simp only [Ctx.ask, Ctx.entryPrice, h.position, h.entryPriceMilli]
  · simp only [Ctx.ask, h.barsHeld]
  · simp only [Ctx.ask, Ctx.unrealizedPips, h.position, h.entryPriceMilli, h.bar]
  · simp only [Ctx.ask, Ctx.endTime, h.bar]
  · simp only [Ctx.ask, Ctx.hour, Ctx.endTime, h.bar]
  · simp only [Ctx.ask, Ctx.weekday, Ctx.endTime, h.bar]
  · simp only [Ctx.ask, Ctx.spreadPips, h.bar]
  · simp only [Ctx.ask, Ctx.ohlc, h.ohlc]
  · simp only [Ctx.ask, Ctx.singleIndicator, h.single]
  · simp only [Ctx.ask, Ctx.singleIndicator, h.single]
  · simp only [Ctx.ask, Ctx.singleIndicator, h.single]
  · simp only [Ctx.ask, Ctx.singleIndicator, h.single]
  · simp only [Ctx.ask, Ctx.singleIndicator, h.single]
  · simp only [Ctx.ask, Ctx.channelIndicator, h.channel]
  · simp only [Ctx.ask, Ctx.bandIndicator, h.band]
  · simp only [Ctx.ask, Ctx.bandIndicator, h.band]

end Ctx

/-! ## No look-ahead -/

/-- At bar `t`, two datasets show a script the same, and only bars up to this one. -/
structure SameAt [IntCast F] (fns : CtxFns F) (toYen : Int → F) (t : Nat) (d₁ d₂ : Dataset F) : Prop where
  series : ∀ tf, ∃ n, SameSeries fns.sqrt t d₁ d₂ tf n ∧
    ∀ idx < n, d₁.MadeUpTo toYen t tf idx ∧ d₂.MadeUpTo toYen t tf idx
  answers : ∀ position entryPriceMilli barsHeld query,
    (Ctx.mk d₁ t position entryPriceMilli barsHeld).ask fns query =
      (Ctx.mk d₂ t position entryPriceMilli barsHeld).ask fns query

variable [IntCast F] {toYen : Int → F} {all₁ all₂ : List Bar} {from₁ to₁ from₂ to₂ : Int} {w₁ w₂ t : Nat}
  {d₁ d₂ : Dataset F}

theorem no_look_ahead (fns : CtxFns F) (hs₁ : Ascending all₁) (hs₂ : Ascending all₂) (hgrid₁ : OnGrid all₁)
    (hgrid₂ : OnGrid all₂) (h₁ : Dataset.new toYen fns.dateOf all₁ from₁ to₁ w₁ = .ok d₁)
    (h₂ : Dataset.new toYen fns.dateOf all₂ from₂ to₂ w₂ = .ok d₂) (ht : t < d₁.bars.length)
    (hagree : d₁.bars.take (t + 1) = d₂.bars.take (t + 1)) :
    SameAt fns toYen t d₁ d₂ := by
  obtain ⟨hasc₁, hg₁, hd₁⟩ := ascending_of_new hs₁ hgrid₁ h₁
  obtain ⟨hasc₂, hg₂, hd₂⟩ := ascending_of_new hs₂ hgrid₂ h₂
  have hlen : (d₁.bars.take t).length = t := by
    rw [List.length_take]
    omega
  have hsplit₁ := take_append_getElem_append ht
  have hsplit₂ : d₁.bars.take t ++ [d₁.bars[t]] ++ d₂.bars.drop (t + 1) = d₂.bars := by
    rw [List.take_append_getElem ht, hagree, List.take_append_drop]
  have hbar : d₁.bars[t]! = d₂.bars[t]! := by
    rw [← getElem!_take (Nat.lt_succ_self t), hagree, getElem!_take (Nat.lt_succ_self t)]
  have hseries : ∀ tf, ∃ n, SameSeries fns.sqrt t d₁ d₂ tf n ∧
      ∀ idx < n, d₁.MadeUpTo toYen t tf idx ∧ d₂.MadeUpTo toYen t tf idx := by
    intro tf
    rw [← hsplit₁] at hasc₁ hg₁ hd₁
    rw [← hsplit₂] at hasc₂ hg₂ hd₂
    obtain ⟨n, hn, hn₁, hser₁, hmade₁⟩ := ofBars_first toYen hasc₁ hg₁ w₁ tf
    obtain ⟨n', hn', hn₂, hser₂, hmade₂⟩ := ofBars_first toYen hasc₂ hg₂ w₂ tf
    obtain rfl : n = n' := by
      rw [hn] at hn'
      exact Option.some.inj hn'
    rw [hlen, ← hd₁] at hn₁ hmade₁
    rw [hlen, ← hd₂] at hn₂ hmade₂
    rw [← hd₁] at hser₁
    rw [← hd₂] at hser₂
    exact ⟨n, .of_first hn₁ hn₂ hser₁ hser₂, fun idx hidx => ⟨hmade₁ idx hidx, hmade₂ idx hidx⟩⟩
  refine ⟨hseries, fun position entryPriceMilli barsHeld query => ?_⟩
  have halike : Ctx.Alike fns (Ctx.mk d₁ t position entryPriceMilli barsHeld)
      (Ctx.mk d₂ t position entryPriceMilli barsHeld) := by
    refine ⟨rfl, rfl, rfl, rfl, hbar, fun tf => ?_⟩
    obtain ⟨n, hn, -⟩ := hseries tf
    exact ⟨n, hn⟩
  exact halike.ask query

end

/-- Three bars, of which the last is to come. -/
def sampleThreeBars (lastBid lastAsk : Int64) : List Bar :=
  [.flat 0 150000 150010, .flat 300 150100 150110, .flat 600 lastBid lastAsk]

/-- Functions of the context over rationals. -/
def sampleFns : CtxFns Rat where
  sqrt := id
  round := id
  toU32 x := x.num.toNat
  dateOf := sampleDateOf
  hourOf t := t / 3600 % 24
  weekdayOf t := (t / 86400 + 3) % 7

/-- Three bars, the last one given. -/
def sampleThreeDataset (lastBid lastAsk : Int64) : Dataset Rat :=
  .ofBars (fun v => (v : Rat) / 2000) (sampleThreeBars lastBid lastAsk) 0

theorem sampleThreeBars_same :
    SameAt sampleFns (fun v => (v : Rat) / 2000) 1 (sampleThreeDataset 150200 150210)
      (sampleThreeDataset 149000 149010) := by
  have hs₁ : Ascending (sampleThreeBars 150200 150210) := by unfold Ascending; decide
  have hs₂ : Ascending (sampleThreeBars 149000 149010) := by unfold Ascending; decide
  have hgrid₁ : OnGrid (sampleThreeBars 150200 150210) := by unfold OnGrid; decide
  have hgrid₂ : OnGrid (sampleThreeBars 149000 149010) := by unfold OnGrid; decide
  have h₁ : Dataset.new (fun v => (v : Rat) / 2000) sampleFns.dateOf (sampleThreeBars 150200 150210) 0 900 0 =
      .ok (sampleThreeDataset 150200 150210) := rfl
  have h₂ : Dataset.new (fun v => (v : Rat) / 2000) sampleFns.dateOf (sampleThreeBars 149000 149010) 0 900 0 =
      .ok (sampleThreeDataset 149000 149010) := rfl
  exact no_look_ahead sampleFns hs₁ hs₂ hgrid₁ hgrid₂ h₁ h₂ (by decide) rfl

end AutoTrader.Sim
