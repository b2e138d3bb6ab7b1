import AutoTrader.Lib.Newest
import AutoTrader.Lib.Script
import AutoTrader.Market.PriceStore
import Mathlib.Data.Int.Order.Basic

/-!
# The price store under any number of writers

Whatever the writers do at the same time, the store holds of each feed the tick with the greatest time among the updates
that have taken their second step, its time never decreases, and a step changes nothing but its own feed
(`price_store_converges`). The steps of a run are a list of effects on one store, and each of them keeps the newer of
two ticks (`PriceCall.effect_latest`), so the order of the steps does not matter (`Of.latest_eq_of_finished`).
-/

namespace AutoTrader

open Lib (History script)
open Lib.Prog (Meets)

/-! ## Runs -/

/-- The tick that a job offers to a feed. -/
def StoreJob.tick? : StoreJob → Option (FeedKey × LatestTick)
  | .update key tick => some (key, tick)
  | .priceEvent event => some (event.feedKey, event.latestTick)
  | .markMarketClosed _ _ => none

/-- The ticks of all updates that the writers make. -/
def Ticks (writers : Nat → List StoreJob) (key : FeedKey) (tick : LatestTick) : Prop :=
  ∃ i, ∃ job ∈ writers i, job.tick? = some (key, tick)

/-- The times of the ticks of a feed are pairwise distinct. -/
def DistinctTimes (ticks : FeedKey → LatestTick → Prop) : Prop :=
  ∀ key t t', ticks key t → ticks key t' → t ≠ t' → t.ts ≠ t'.ts

/-- Of each feed the store holds the tick with the greatest time. -/
def PriceStore.HoldsNewest (w : PriceStore) (ticks : FeedKey → LatestTick → Prop) : Prop :=
  ∀ key, (w.latest key = none ∧ ∀ t, ¬ticks key t) ∨
    ∃ t, w.latest key = some t ∧ ticks key t ∧ ∀ t', ticks key t' → t' ≠ t → t'.ts < t.ts

/-- The time that is stored of a feed does not decrease. -/
def PriceStore.NeverDecreases (w w' : PriceStore) : Prop :=
  ∀ key t, w.latest key = some t → ∃ t', w'.latest key = some t' ∧ t.ts ≤ t'.ts

/-- The two agree on a feed. -/
def PriceStore.SameFeed (w w' : PriceStore) (key : FeedKey) : Prop :=
  w'.latest key = w.latest key ∧ w'.marketClosed key = w.marketClosed key

/-- A run of any number of writers over one store. -/
abbrev PriceRun := History priceCalls PriceStore Empty Unit

namespace PriceRun

/-- Writer `i` does `writers i`, beginning with a new store. -/
def Of (expected : List FeedKey) (writers : Nat → List StoreJob) (h : PriceRun) : Prop :=
  h.Valid priceSys ⟨.new expected, fun i => runJobs (writers i)⟩

/-- The steps that the writers have taken. -/
def calls (h : PriceRun) : List PriceCall := h.made.map Prod.snd

/-- The ticks of the updates that have taken their second step. -/
def Offered (h : PriceRun) (key : FeedKey) (tick : LatestTick) : Prop :=
  ∃ i, (i, PriceCall.storeIfNewer key tick) ∈ h.made

/-- All writers have ended. -/
def Finished (h : PriceRun) : Prop := ∀ i, h.last.thread i = .done ()

end PriceRun

/-! ## One store -/

/-- The tick that a call offers to a feed. -/
def PriceCall.tickFor (key : FeedKey) : PriceCall → Option LatestTick
  | .storeIfNewer k tick => if k = key then some tick else none
  | _ => none

section

variable {w : PriceStore} {key : FeedKey} {c : PriceCall}

theorem PriceCall.tickFor_eq_some {tick : LatestTick} : c.tickFor key = some tick ↔ c = .storeIfNewer key tick := by
  rcases c with k | ⟨k, t⟩ | ⟨k, now⟩ <;> simp [tickFor]

theorem storeIfNewer_latest (tick : LatestTick) :
    (w.storeIfNewer key tick).latest =
      Function.update w.latest key (Lib.keepNewer LatestTick.ts (w.latest key) tick) := by
  unfold PriceStore.storeIfNewer
  rcases hstored : w.latest key with _ | t
  · rfl
  · rw [Lib.keepNewer_some]
    by_cases hnewer : t.ts < tick.ts
    · rw [if_pos hnewer, if_pos (by simpa [isNewerThanStored] using hnewer)]
    · rw [if_neg hnewer, if_neg (by simpa [isNewerThanStored] using hnewer), ← hstored, Function.update_eq_self]

/-- A call keeps the newer of the stored tick and the one it offers to the feed. -/
theorem PriceCall.effect_latest (c : PriceCall) : (PriceCall.effect w c).latest key =
    ((c.tickFor key).map (Lib.keepNewer LatestTick.ts (w.latest key))).getD (w.latest key) := by
  rcases c with k | ⟨k, tick⟩ | ⟨k, now⟩
  · rfl
  · show (w.storeIfNewer k tick).latest key = ((if k = key then some tick else none).map _).getD _
    rw [storeIfNewer_latest]
    by_cases hkey : k = key
    · rw [if_pos hkey, hkey, Function.update_self]
      rfl
    · rw [if_neg hkey, Function.update_of_ne fun heq => hkey heq.symm]
      rfl
  · rfl

theorem PriceCall.effect_sameFeed (c : PriceCall) (hkey : key ≠ c.key) : w.SameFeed (PriceCall.effect w c) key := by
  rcases c with k | ⟨k, tick⟩ | ⟨k, now⟩
  · exact ⟨rfl, Function.update_of_ne hkey ..⟩
  · refine ⟨?_, ?_⟩
    · show (w.storeIfNewer k tick).latest key = _
      rw [storeIfNewer_latest]
      exact Function.update_of_ne hkey ..
    · show (w.storeIfNewer k tick).marketClosed key = _
      unfold PriceStore.storeIfNewer
      split <;> rfl
  · exact ⟨rfl, Function.update_of_ne hkey ..⟩

theorem PriceCall.effect_neverDecreases (c : PriceCall) : w.NeverDecreases (PriceCall.effect w c) := by
  intro key t ht
  rw [c.effect_latest, ht]
  rcases c.tickFor key with _ | tick
  · exact ⟨t, rfl, Int.le_refl _⟩
  · obtain ⟨t', hkept, hnot⟩ : ∃ t', Lib.keepNewer LatestTick.ts (some t) tick = some t' ∧ ¬t'.ts < t.ts :=
      Lib.exists_keepNewer Int.lt_irrefl fun _ _ => Int.lt_asymm
    exact ⟨t', hkept, Int.not_lt.mp hnot⟩

/-- After any list of steps the store holds the newest of the ticks that they offer to the feed. -/
theorem foldl_effect_latest (calls : List PriceCall) : ∀ w : PriceStore, (calls.foldl PriceCall.effect w).latest key =
    (calls.filterMap (PriceCall.tickFor key)).foldl (Lib.keepNewer LatestTick.ts) (w.latest key) := by
  induction calls with
  | nil => exact fun _ => rfl
  | cons c calls ih =>
    intro w
    rw [List.foldl_cons, ih, c.effect_latest]
    rcases hoffers : c.tickFor key with _ | tick
    · rw [List.filterMap_cons_none hoffers]
      rfl
    · rw [List.filterMap_cons_some hoffers, List.foldl_cons]
      rfl

end

/-! ## Writers -/

/-- The steps of a job. -/
def StoreJob.calls : StoreJob → List PriceCall
  | .update key tick => [.clearMarketClosedOnTick key, .storeIfNewer key tick]
  | .priceEvent event => [.clearMarketClosedOnTick event.feedKey, .storeIfNewer event.feedKey event.latestTick]
  | .markMarketClosed key now => [.insertMarketClosed key now]

theorem StoreJob.run_meets (job : StoreJob) (rest : List PriceCall) :
    Meets (script priceCalls) (job.calls ++ rest) job.run fun p _ => p = rest := by
  rcases job with ⟨key, tick⟩ | event | ⟨key, now⟩
  · exact ⟨rfl, fun _ => ⟨rfl, fun _ => rfl⟩⟩
  · exact ⟨rfl, fun _ => ⟨rfl, fun _ => rfl⟩⟩
  · exact ⟨rfl, fun _ => rfl⟩

theorem runJobs_meets : ∀ jobs : List StoreJob,
    Meets (script priceCalls) (jobs.flatMap StoreJob.calls) (runJobs jobs) fun p _ => p = []
  | [] => rfl
  | job :: jobs => by
    refine Meets.bind (Meets.mono (fun p _ hp => ?_) (job.run_meets (jobs.flatMap StoreJob.calls)))
    rw [hp]
    exact runJobs_meets jobs

theorem storeIfNewer_mem_calls {job : StoreJob} {key : FeedKey} {tick : LatestTick} :
    .storeIfNewer key tick ∈ job.calls ↔ job.tick? = some (key, tick) := by
  rcases job with ⟨k, t⟩ | event | ⟨k, now⟩ <;> simp [StoreJob.calls, StoreJob.tick?, eq_comm]

theorem ticks_iff {writers : Nat → List StoreJob} {key : FeedKey} {tick : LatestTick} :
    Ticks writers key tick ↔ ∃ i, .storeIfNewer key tick ∈ (writers i).flatMap StoreJob.calls := by
  simp only [Ticks, List.mem_flatMap, storeIfNewer_mem_calls]

/-! ## Runs of the writers -/

namespace PriceRun

variable {expected : List FeedKey} {writers : Nat → List StoreJob} {h : PriceRun}

theorem Of.ticks_of_offered (hrun : h.Of expected writers) {key : FeedKey} {tick : LatestTick}
    (hoffered : h.Offered key tick) : Ticks writers key tick := by
  obtain ⟨i, hi⟩ := History.mem_made_iff.mp hoffered
  exact ticks_iff.mpr ⟨i, History.Valid.mem_of_made (fun i => runJobs_meets (writers i)) hrun hi⟩

/-- When all writers have ended, every tick has been offered. -/
theorem Of.offered_of_finished (hrun : h.Of expected writers) (hfinished : h.Finished) {key : FeedKey}
    {tick : LatestTick} (htick : Ticks writers key tick) : h.Offered key tick := by
  obtain ⟨i, hi⟩ := ticks_iff.mp htick
  apply History.mem_made_iff.mpr
  exact ⟨i, (History.Valid.madeBy_of_done (fun i => runJobs_meets (writers i)) hrun (hfinished i)).symm ▸ hi⟩

theorem Of.newest (hrun : h.Of expected writers) (key : FeedKey) :
    Lib.Newest LatestTick.ts (h.world.latest key) (h.Offered key) := by
  have hworld : h.world = h.calls.foldl PriceCall.effect (.new expected) :=
    History.Valid.world_eq (fun _ _ _ _ _ heq => heq) hrun
  have hmem : h.Offered key = (· ∈ h.calls.filterMap (PriceCall.tickFor key)) := by
    funext tick
    have hoffered : PriceCall.storeIfNewer key tick ∈ h.calls ↔ h.Offered key tick :=
      History.mem_calls_iff (I := priceCalls) (h := h)
    simp only [List.mem_filterMap, PriceCall.tickFor_eq_some, exists_eq_right, hoffered]
  rw [hworld, foldl_effect_latest, hmem]
  exact Lib.newest_foldl Int.lt_irrefl (fun _ _ _ => Int.lt_trans) _

theorem Of.holdsNewest (hrun : h.Of expected writers) (hdistinct : DistinctTimes (Ticks writers)) :
    h.world.HoldsNewest h.Offered := by
  intro key
  rcases hrun.newest key with hnone | ⟨t, hsome, ht, hmax⟩
  · exact .inl hnone
  · refine .inr ⟨t, hsome, ht, fun t' ht' hne => ?_⟩
    exact lt_of_le_of_ne (Int.not_lt.mp (hmax t' ht')) (hdistinct key t' t (hrun.ticks_of_offered ht')
      (hrun.ticks_of_offered ht) hne)

theorem Of.holdsNewest_of_finished (hrun : h.Of expected writers) (hdistinct : DistinctTimes (Ticks writers))
    (hfinished : h.Finished) : h.world.HoldsNewest (Ticks writers) := by
  have hsame : h.Offered = Ticks writers := by
    funext key tick
    exact propext ⟨hrun.ticks_of_offered, hrun.offered_of_finished hfinished⟩
  have hnewest := hrun.holdsNewest hdistinct
  rwa [hsame] at hnewest

/-- Where the same ticks are offered, by whatever writers and in whatever order, the same ticks are held in the end. -/
theorem Of.latest_eq_of_finished {expected' : List FeedKey} {writers' : Nat → List StoreJob} {h' : PriceRun}
    (hrun : h.Of expected writers) (hrun' : h'.Of expected' writers') (hdistinct : DistinctTimes (Ticks writers))
    (hsame : Ticks writers = Ticks writers') (hfinished : h.Finished) (hfinished' : h'.Finished) :
    h.world.latest = h'.world.latest := by
  have hoffered : ∀ key, h.Offered key = h'.Offered key := fun key => by
    funext tick
    refine propext ⟨fun ho => ?_, fun ho => ?_⟩
    · exact hrun'.offered_of_finished hfinished' (hsame ▸ hrun.ticks_of_offered ho)
    · exact hrun.offered_of_finished hfinished (hsame.symm ▸ hrun'.ticks_of_offered ho)
  funext key
  refine (hrun.newest key).unique (hoffered key ▸ hrun'.newest key) fun t t' ht ht' hne => ?_
  exact lt_or_gt_of_ne (hdistinct key t t' (hrun.ticks_of_offered ht) (hrun.ticks_of_offered ht') hne)

end PriceRun

/-- In every run, at every moment: the store holds the newest of the ticks whose updates have taken their second step,
and of all ticks once the writers have ended; no step decreases a stored time or changes another feed. -/
theorem price_store_converges {expected : List FeedKey} {writers : Nat → List StoreJob} {h : PriceRun}
    (hrun : h.Of expected writers) (hdistinct : DistinctTimes (Ticks writers)) :
    h.world.HoldsNewest h.Offered ∧ (h.Finished → h.world.HoldsNewest (Ticks writers)) ∧
      h.Steps (fun before l c => before.world.NeverDecreases c.world ∧
        ∀ i call answer, l = .call i call answer → ∀ key, key ≠ PriceCall.key call →
          before.world.SameFeed c.world key) := by
  refine ⟨hrun.holdsNewest hdistinct, hrun.holdsNewest_of_finished hdistinct, ?_⟩
  refine History.Steps.mono (fun before l c hstep => ?_) (History.Valid.steps hrun)
  rcases l with ⟨i, call, answer⟩ | m
  · have heffect : c.world = PriceCall.effect before.world call := hstep.1
    rw [heffect]
    refine ⟨call.effect_neverDecreases, ?_⟩
    rintro i' call' answer' heq key hkey
    cases heq
    exact call.effect_sameFeed hkey
  · exact m.elim

/-! ## An old tick that arrives late -/

/-- The feed of the sample. -/
def sampleFeed : FeedKey := ⟨.bitflyerCfd, "FX_BTC_JPY"⟩

/-- A tick without a book. -/
def sampleLatestTick (price : Decimal) (ts : DateTime) : LatestTick := { price, bestBid := none, bestAsk := none, ts }

/-- One writer has the tick of time 2, another one that of time 1. -/
def sampleWriters : Nat → List StoreJob
  | 0 => [.update sampleFeed (sampleLatestTick 102 2)]
  | 1 => [.update sampleFeed (sampleLatestTick 101 1)]
  | _ => []

/-- The first update is made between the two steps of the second. -/
def sampleRace : PriceRun :=
  Lib.play ⟨.new [sampleFeed], fun i => runJobs (sampleWriters i)⟩
    ([1, 0, 0, 1].map fun i => .call i fun w c => some ((), PriceCall.effect w c))

theorem sampleRace_of : sampleRace.Of [sampleFeed] sampleWriters := by
  refine Lib.play_valid _ _ fun x hx => ?_
  obtain ⟨i, -, rfl⟩ := List.mem_map.mp hx
  intro w c r w' h
  exact (congrArg Prod.snd (Option.some.inj h)).symm

theorem sampleWriters_distinct : DistinctTimes (Ticks sampleWriters) := by
  have htick : ∀ key t, Ticks sampleWriters key t → t = sampleLatestTick 102 2 ∨ t = sampleLatestTick 101 1 := by
    rintro key t ⟨i, job, hjob, htick⟩
    rcases i with _ | _ | i
    · obtain rfl := List.mem_singleton.mp hjob
      exact .inl (congrArg Prod.snd (Option.some.inj htick)).symm
    · obtain rfl := List.mem_singleton.mp hjob
      exact .inr (congrArg Prod.snd (Option.some.inj htick)).symm
    · exact absurd hjob List.not_mem_nil
  intro key t t' ht ht' hne
  rcases htick key t ht with rfl | rfl <;> rcases htick key t' ht' with rfl | rfl
  · exact absurd rfl hne
  · decide
  · decide
  · exact absurd rfl hne

theorem sampleRace_converges :
    sampleRace.world.HoldsNewest sampleRace.Offered ∧
      (sampleRace.Finished → sampleRace.world.HoldsNewest (Ticks sampleWriters)) ∧
      sampleRace.Steps (fun before l c => before.world.NeverDecreases c.world ∧
        ∀ i call answer, l = .call i call answer → ∀ key, key ≠ PriceCall.key call →
          before.world.SameFeed c.world key) :=
  price_store_converges sampleRace_of sampleWriters_distinct

end AutoTrader
