import AutoTrader.Strategy.FxNew
import Mathlib.Data.List.Induction

/-!
# M15 candles

What `aggregateM15` makes of the M5 candles of one pair: `Aggregated` says which calls answer with a candle, what
the candle is made of, and what is pending between two calls. The candles may be repeated and may be missing; a
candle that comes again after its quarter is complete stays pending alone until the next quarter (`Pends`). The
volumes are summed as words, so that all of it is true just when the sums are words (`aggregated_iff`);
`sampleVolumes_wrapped` has a quarter with more volume.
-/

namespace AutoTrader

namespace FxNewV1

/-- The merging of the M5 candles alone. -/
def aggregator : Lib.Machine FxNewV1 PriceEvent (Option Candle) where
  step event s := s.aggregateM15 event
  warm event s := (s.aggregateM15 event).2

/-! ## Deliveries -/

/-- M5 candles of one pair, each at a multiple of 300 s, in the order of their times. -/
structure Delivered (pair : Pair) (events : List PriceEvent) : Prop where
  pair : ∀ e ∈ events, e.pair = pair
  grid : ∀ e ∈ events, ∃ n : Int, 300 ∣ n ∧ e.candle.timestamp = seconds n
  ordered : events.Pairwise fun d e => d.candle.timestamp ≤ e.candle.timestamp

/-- The candle of the second `n` as it was delivered first. -/
def firstDelivery (events : List PriceEvent) (n : Int) : Option Candle :=
  (events.find? fun e => e.candle.timestamp = seconds n).map PriceEvent.candle

/-- The candles of the quarter of an hour that begins at a second, in the order of their times. -/
def deliveredIn (events : List PriceEvent) (start : Int) : List Candle :=
  (firstDelivery events start).toList ++ (firstDelivery events (start + 300)).toList ++
    (firstDelivery events (start + 600)).toList

/-- All three M5 candles of the bar at `start` were shown. -/
def AllThree (events : List PriceEvent) (start : Int) : Prop :=
  ∀ n ∈ [start, start + 300, start + 600], ∃ e ∈ events, e.candle.timestamp = seconds n

/-- The volume of a candle; a candle without one has none. -/
def volumeOf (candle : Candle) : Nat := (candle.volume.getD 0).toNat

/-- The candle of a quarter, in terms of its three candles. -/
structure QuarterOf (first second third : Candle) (start : Int) (candle : Candle) : Prop where
  pair : candle.pair = first.pair
  exchange : candle.exchange = first.exchange
  timeframe : candle.timeframe = "M15"
  opening : candle.open = first.open
  high : candle.high = max (max first.high second.high) third.high
  low : candle.low = min (min first.low second.low) third.low
  close : candle.close = third.close
  volume : ∃ v : UInt64, candle.volume = some v ∧ v.toNat = volumeOf first + volumeOf second + volumeOf third
  bestBid : candle.bestBid = third.bestBid
  bestAsk : candle.bestAsk = third.bestAsk
  timestamp : candle.timestamp = seconds start

/-- The event brings the third candle of a quarter, and brings it for the first time. -/
def ThirdArrives (before : List PriceEvent) (event : PriceEvent) (candle : Candle) : Prop :=
  ∃ start first second, 900 ∣ start ∧ firstDelivery before start = some first ∧
    firstDelivery before (start + 300) = some second ∧ firstDelivery before (start + 600) = none ∧
    event.candle.timestamp = seconds (start + 600) ∧ QuarterOf first second event.candle start candle

/-- What the aggregation makes of the events of a pair: its answers, and the pending candles between two calls. -/
structure Aggregated (s : FxNewV1) (pair : Pair) (events : List PriceEvent) : Prop where
  answered : ∀ before e after, events = before ++ e :: after → ∀ candle,
    (aggregator.outputs s events)[before.length]? = some (some candle) ↔ ThirdArrives before e candle
  complete : ∀ start, 900 ∣ start →
    ((∃ candle, some candle ∈ aggregator.outputs s events ∧ candle.timestamp = seconds start) ↔ AllThree events start)
  once : ((aggregator.outputs s events).filterMap id).Pairwise fun c d => c.timestamp < d.timestamp
  pending : ∀ before, before <+: events →
    ((aggregator.after s before).m5Pending pair).length ≤ 2 ∧
      ∀ c ∈ (aggregator.after s before).m5Pending pair, ∀ d ∈ (aggregator.after s before).m5Pending pair,
        bucketOf c.timestamp = bucketOf d.timestamp

/-- The volume of every complete quarter is a word. -/
def VolumesFit (events : List PriceEvent) : Prop :=
  ∀ start, 900 ∣ start → AllThree events start → ((deliveredIn events start).map volumeOf).sum < 2 ^ 64

/-! ## The candle of a quarter -/

/-- The candle that the code makes of three candles. -/
def m15Of (first second third : Candle) (start : Int) : Candle where
  pair := first.pair
  exchange := first.exchange
  timeframe := "M15"
  «open» := first.open
  high := max (max first.high second.high) third.high
  low := min (min first.low second.low) third.low
  close := third.close
  volume := some (first.volume.getD 0 + second.volume.getD 0 + third.volume.getD 0)
  bestBid := third.bestBid
  bestAsk := third.bestAsk
  timestamp := seconds start

/-- The event completes a quarter, with the candle that the code makes. -/
def Completes (before : List PriceEvent) (event : PriceEvent) (candle : Candle) : Prop :=
  ∃ start first second, 900 ∣ start ∧ firstDelivery before start = some first ∧
    firstDelivery before (start + 300) = some second ∧ firstDelivery before (start + 600) = none ∧
    event.candle.timestamp = seconds (start + 600) ∧ candle = m15Of first second event.candle start

@[simp] theorem m5Pending_setPending (s : FxNewV1) (pair : Pair) (pending : List Candle) :
    (s.setPending pair pending).m5Pending pair = pending := Function.update_self ..

theorem seconds_inj {m n : Int} : seconds m = seconds n ↔ m = n := by
  unfold seconds
  omega

theorem seconds_le {m n : Int} : seconds m ≤ seconds n ↔ m ≤ n := by
  unfold seconds
  omega

theorem bucketOf_seconds (n : Int) : bucketOf (seconds n) = n - n % 900 := by
  have hsecs : timestampSeconds (seconds n) = n := by
    rw [timestampSeconds, seconds, Int.fdiv_eq_ediv_of_nonneg _ (by decide)]
    omega
  rw [bucketOf, hsecs]
  rfl

theorem mergeM15_three (a b c : Candle) (start : Int) : mergeM15 [a, b, c] start = some (m15Of a b c start) := by
  simp [mergeM15, m15Of, List.max?, List.min?, UInt64.add_assoc]

/-- Words whose sum is a word are added without wrapping around. -/
theorem toNat_add_three {x y z : UInt64} (h : x.toNat + y.toNat + z.toNat < 2 ^ 64) :
    (x + y + z).toNat = x.toNat + y.toNat + z.toNat := by
  rw [UInt64.toNat_add, UInt64.toNat_add]
  omega

/-- The code makes the candle of the quarter just when the volume is a word. -/
theorem quarterOf_iff {a b c candle : Candle} {start : Int} :
    QuarterOf a b c start candle ↔ candle = m15Of a b c start ∧ volumeOf a + volumeOf b + volumeOf c < 2 ^ 64 := by
  constructor
  · intro h
    obtain ⟨v, hv, htotal⟩ := h.volume
    have hfits : volumeOf a + volumeOf b + volumeOf c < 2 ^ 64 := htotal ▸ v.toNat_lt
    have hsum : v = a.volume.getD 0 + b.volume.getD 0 + c.volume.getD 0 :=
      UInt64.toNat_inj.mp (htotal.trans (toNat_add_three hfits).symm)
    refine ⟨?_, hfits⟩
    obtain ⟨⟩ := candle
    simp only [m15Of, Candle.mk.injEq]
    exact ⟨h.pair, h.exchange, h.timeframe, h.opening, h.high, h.low, h.close, hsum ▸ hv, h.bestBid, h.bestAsk,
      h.timestamp⟩
  · rintro ⟨rfl, hfits⟩
    exact ⟨rfl, rfl, rfl, rfl, rfl, rfl, rfl, ⟨_, rfl, toNat_add_three hfits⟩, rfl, rfl, rfl⟩

section

variable {pair : Pair} {events : List PriceEvent} {e : PriceEvent} {n start : Int} {c : Candle}

theorem firstDelivery_timestamp (h : firstDelivery events n = some c) : c.timestamp = seconds n := by
  obtain ⟨e, he, rfl⟩ := Option.map_eq_some_iff.mp h
  simpa using List.find?_some he

theorem firstDelivery_eq_none :
    firstDelivery events n = none ↔ ∀ e ∈ events, e.candle.timestamp ≠ seconds n := by
  simp [firstDelivery]

theorem firstDelivery_concat : firstDelivery (events ++ [e]) n =
    (firstDelivery events n).or (if e.candle.timestamp = seconds n then some e.candle else none) := by
  rw [firstDelivery, List.find?_append, Option.map_or, ← firstDelivery]
  by_cases h : e.candle.timestamp = seconds n <;> simp [h]

theorem length_firstDelivery (events : List PriceEvent) (n : Int) : (firstDelivery events n).toList.length ≤ 1 := by
  cases firstDelivery events n <;> simp

theorem length_deliveredIn (events : List PriceEvent) (start : Int) : (deliveredIn events start).length ≤ 3 := by
  have h₀ := length_firstDelivery events start
  have h₁ := length_firstDelivery events (start + 300)
  have h₂ := length_firstDelivery events (start + 600)
  simp only [deliveredIn, List.length_append]
  omega

theorem allThree_iff : AllThree events start ↔ (deliveredIn events start).length = 3 := by
  have hsome : ∀ n, (∃ e ∈ events, e.candle.timestamp = seconds n) ↔ (firstDelivery events n).toList.length = 1 := by
    intro n
    cases h : firstDelivery events n with
    | none => simpa using firstDelivery_eq_none.mp h
    | some c =>
      obtain ⟨e, he, -⟩ := Option.map_eq_some_iff.mp h
      simpa using ⟨e, List.mem_of_find?_eq_some he, by simpa using List.find?_some he⟩
  have h₀ := length_firstDelivery events start
  have h₁ := length_firstDelivery events (start + 300)
  have h₂ := length_firstDelivery events (start + 600)
  simp only [AllThree, hsome, deliveredIn, List.length_append, List.forall_mem_cons, List.not_mem_nil,
    false_implies, implies_true, and_true]
  omega

theorem Delivered.before (h : Delivered pair (events ++ [e])) : Delivered pair events where
  pair d hd := h.pair d (List.mem_append_left _ hd)
  grid d hd := h.grid d (List.mem_append_left _ hd)
  ordered := (List.pairwise_append.mp h.ordered).1

/-- What has been delivered before an event is no later. -/
theorem Delivered.not_later (h : Delivered pair (events ++ [e])) (he : e.candle.timestamp = seconds n) {m : Int}
    (hm : n < m) : firstDelivery events m = none := by
  refine firstDelivery_eq_none.mpr fun d hd heq => ?_
  have hle := (List.pairwise_append.mp h.ordered).2.2 d hd e (List.mem_singleton_self e)
  rw [heq, he, seconds_le] at hle
  omega

/-! ## What is pending -/

/-- What a quarter has pending when its next candle comes. -/
def Pends (events : List PriceEvent) (start : Int) (pending : List Candle) : Prop :=
  ¬AllThree events start ∧ pending = deliveredIn events start ∨
    AllThree events start ∧ (pending = [] ∨ ∃ c, c.timestamp = seconds (start + 600) ∧ pending = [c])

theorem mem_deliveredIn : c ∈ deliveredIn events start ↔
    ∃ n ∈ [start, start + 300, start + 600], firstDelivery events n = some c := by
  simp [deliveredIn]

theorem deliveredIn_sorted : (deliveredIn events start).Pairwise fun a b => a.timestamp ≤ b.timestamp := by
  have hle : ∀ {a b m n}, firstDelivery events m = some a → firstDelivery events n = some b → m ≤ n →
      a.timestamp ≤ b.timestamp := by
    intro a b m n ha hb hmn
    rw [firstDelivery_timestamp ha, firstDelivery_timestamp hb, seconds_le]
    exact hmn
  rw [deliveredIn]
  rcases h₀ : firstDelivery events start with _ | a <;> rcases h₁ : firstDelivery events (start + 300) with _ | b <;>
    rcases h₂ : firstDelivery events (start + 600) with _ | c <;> simp
  · exact hle h₁ h₂ (by omega)
  · exact hle h₀ h₂ (by omega)
  · exact hle h₀ h₁ (by omega)
  · exact ⟨⟨hle h₀ h₁ (by omega), hle h₀ h₂ (by omega)⟩, hle h₁ h₂ (by omega)⟩

theorem deliveredIn_eq_nil (h : ∀ n, start ≤ n → firstDelivery events n = none) : deliveredIn events start = [] := by
  simp [deliveredIn, h start (by omega), h (start + 300) (by omega), h (start + 600) (by omega)]

/-- Everything that is pending is of the quarter. -/
theorem Pends.bucket {pending : List Candle} (h : Pends events start pending) (hstart : 900 ∣ start)
    (hc : c ∈ pending) : bucketOf c.timestamp = start := by
  rcases h with ⟨-, rfl⟩ | ⟨-, rfl | ⟨d, hd, rfl⟩⟩
  · obtain ⟨n, hn, hc⟩ := mem_deliveredIn.mp hc
    rw [firstDelivery_timestamp hc, bucketOf_seconds]
    simp at hn
    omega
  · exact absurd hc List.not_mem_nil
  · obtain rfl := List.mem_singleton.mp hc
    rw [hd, bucketOf_seconds]
    omega

theorem Pends.length_le {pending : List Candle} (h : Pends events start pending) : pending.length ≤ 2 := by
  rcases h with ⟨hnot, rfl⟩ | ⟨-, rfl | ⟨d, -, rfl⟩⟩
  · rw [allThree_iff] at hnot
    have hle := length_deliveredIn events start
    omega
  · simp
  · simp

/-! ## One call -/

theorem firstDelivery_repeat (he : e.candle.timestamp = seconds n) (hold : firstDelivery events n = some c) (m : Int) :
    firstDelivery (events ++ [e]) m = firstDelivery events m := by
  rw [firstDelivery_concat, he]
  by_cases hm : n = m
  · subst hm
    simp [hold]
  · simp [mt seconds_inj.mp hm]

theorem deliveredIn_repeat (he : e.candle.timestamp = seconds n) (hold : firstDelivery events n = some c) :
    deliveredIn (events ++ [e]) start = deliveredIn events start := by
  simp only [deliveredIn, firstDelivery_repeat he hold]

/-- A candle that comes for the first time is the last one of its quarter so far. -/
theorem Delivered.deliveredIn_new (h : Delivered pair (events ++ [e])) (he : e.candle.timestamp = seconds n)
    (hnew : firstDelivery events n = none) (hn : n ∈ [start, start + 300, start + 600]) :
    deliveredIn (events ++ [e]) start = deliveredIn events start ++ [e.candle] := by
  have hslot : ∀ m, firstDelivery (events ++ [e]) m = if n = m then some e.candle else firstDelivery events m := by
    intro m
    rw [firstDelivery_concat, he]
    by_cases hm : n = m
    · subst hm
      simp [hnew]
    · simp [hm, seconds_inj]
  have hlater : ∀ m, n < m → firstDelivery events m = none := fun m hm => h.not_later he hm
  simp only [deliveredIn, hslot]
  simp only [List.mem_cons, List.not_mem_nil, or_false] at hn
  rcases hn with rfl | rfl | rfl
  · simp [hnew, hlater (n + 300) (by omega), hlater (n + 600) (by omega)]
  · simp [hnew, hlater (start + 600) (by omega)]
  · simp [hnew]

theorem aggregateM15_repeated {s : FxNewV1} (h : ∃ c ∈ s.currentPending e, c.timestamp = e.candle.timestamp) :
    s.aggregateM15 e = (none, s.setPending e.pair (s.currentPending e)) := by
  rw [aggregateM15, if_pos (by simpa using h)]

theorem aggregateM15_new {s : FxNewV1} (h : ¬∃ c ∈ s.currentPending e, c.timestamp = e.candle.timestamp)
    (hsorted : (s.currentPending e ++ [e.candle]).Pairwise fun a b => a.timestamp ≤ b.timestamp) :
    s.aggregateM15 e =
      if (s.currentPending e).length ≠ 2 then (none, s.setPending e.pair (s.currentPending e ++ [e.candle]))
      else (mergeM15 (s.currentPending e ++ [e.candle]) (bucketOf e.candle.timestamp), s.setPending e.pair []) := by
  rw [aggregateM15, if_neg (by simpa using h)]
  dsimp only
  rw [hsorted.insertionSort_eq, List.length_append, List.length_singleton]
  simp only [ne_eq, Nat.reduceEqDiff]

theorem completes_iff (he : e.candle.timestamp = seconds n) (hstart : 900 ∣ start)
    (hn : n ∈ [start, start + 300, start + 600]) {candle : Candle} : Completes events e candle ↔
      n = start + 600 ∧ firstDelivery events n = none ∧ ∃ first second, firstDelivery events start = some first ∧
        firstDelivery events (start + 300) = some second ∧ candle = m15Of first second e.candle start := by
  constructor
  · rintro ⟨start', first, second, hstart', hfirst, hsecond, hnew, hthird, rfl⟩
    have hn' : n = start' + 600 := seconds_inj.mp (he.symm.trans hthird)
    have hsame : start' = start := by
      simp only [List.mem_cons, List.not_mem_nil, or_false] at hn
      omega
    subst hsame
    exact ⟨hn', hn' ▸ hnew, first, second, hfirst, hsecond, rfl⟩
  · rintro ⟨rfl, hnew, first, second, hfirst, hsecond, rfl⟩
    exact ⟨start, first, second, hstart, hfirst, hsecond, hnew, he, rfl⟩

theorem AllThree.some (h : AllThree events start) (hn : n ∈ [start, start + 300, start + 600]) :
    firstDelivery events n ≠ none := by
  obtain ⟨d, hd, htime⟩ := h n hn
  exact fun hnone => firstDelivery_eq_none.mp hnone d hd htime

/-- The last of three candles has come, so no other candle of the quarter can come. -/
theorem Delivered.last_of_allThree (h : Delivered pair (events ++ [e])) (he : e.candle.timestamp = seconds n)
    (hn : n ∈ [start, start + 300, start + 600]) (hall : AllThree events start) : n = start + 600 := by
  by_contra hne
  refine hall.some (n := start + 600) (by simp) (h.not_later he ?_)
  simp only [List.mem_cons, List.not_mem_nil, or_false] at hn
  omega

/-- What completes a quarter is its third candle, after the two others. -/
theorem Delivered.third_of_allThree (h : Delivered pair (events ++ [e])) (he : e.candle.timestamp = seconds n)
    (hn : n ∈ [start, start + 300, start + 600]) (hall : AllThree (events ++ [e]) start) :
    n = start + 600 ∧ ∃ first second, firstDelivery events start = some first ∧
      firstDelivery events (start + 300) = some second := by
  have hbefore : ∀ m ∈ [start, start + 300, start + 600], m ≠ n → firstDelivery events m ≠ none := by
    intro m hm hne
    have hsome := hall.some hm
    rwa [firstDelivery_concat, he, if_neg (mt seconds_inj.mp hne.symm), Option.or_none] at hsome
  have hlast : n = start + 600 := by
    by_contra hne
    refine hbefore (start + 600) (by simp) (Ne.symm hne) (h.not_later he ?_)
    simp only [List.mem_cons, List.not_mem_nil, or_false] at hn
    omega
  obtain ⟨first, hfirst⟩ := Option.ne_none_iff_exists'.mp (hbefore start (by simp) (by omega))
  obtain ⟨second, hsecond⟩ := Option.ne_none_iff_exists'.mp (hbefore (start + 300) (by simp) (by omega))
  exact ⟨hlast, first, second, hfirst, hsecond⟩

theorem Delivered.spec_new {s : FxNewV1} (h : Delivered pair (events ++ [e])) (he : e.candle.timestamp = seconds n)
    (hstart : bucketOf e.candle.timestamp = start) (hdvd : 900 ∣ start) (hn : n ∈ [start, start + 300, start + 600])
    (hnew : firstDelivery events n = none) (hpends : Pends events start (s.currentPending e)) :
    Pends (events ++ [e]) start ((s.aggregateM15 e).2.m5Pending e.pair) ∧
      ∀ candle, (s.aggregateM15 e).1 = some candle ↔ Completes events e candle := by
  have hpending : s.currentPending e = deliveredIn events start := by
    rcases hpends with ⟨-, hp⟩ | ⟨hall, -⟩
    · exact hp
    · exact absurd hnew (hall.some hn)
  have hnext := h.deliveredIn_new he hnew hn
  have hfresh : ¬∃ c ∈ s.currentPending e, c.timestamp = e.candle.timestamp := by
    rw [hpending]
    rintro ⟨c, hc, htime⟩
    obtain ⟨m, -, hc⟩ := mem_deliveredIn.mp hc
    obtain rfl : m = n := seconds_inj.mp ((firstDelivery_timestamp hc).symm.trans (htime.trans he))
    rw [hnew] at hc
    exact absurd hc.symm (Option.some_ne_none c)
  have hsorted : (deliveredIn events start ++ [e.candle]).Pairwise fun a b => a.timestamp ≤ b.timestamp :=
    hnext ▸ deliveredIn_sorted
  have hlen : (deliveredIn events start).length = 2 ↔ AllThree (events ++ [e]) start := by
    rw [allThree_iff, hnext, List.length_append, List.length_singleton]
    omega
  rw [aggregateM15_new hfresh (hpending ▸ hsorted), hpending, hstart]
  by_cases hall : AllThree (events ++ [e]) start
  · obtain ⟨rfl, first, second, hfirst, hsecond⟩ := h.third_of_allThree he hn hall
    rw [if_neg (not_not.mpr (hlen.mpr hall))]
    refine ⟨.inr ⟨hall, .inl (by simp)⟩, fun candle => ?_⟩
    rw [completes_iff he hdvd hn]
    simp only [deliveredIn, hfirst, hsecond, hnew]
    show mergeM15 [first, second, e.candle] start = some candle ↔ _
    rw [mergeM15_three]
    simp [eq_comm]
  · rw [if_pos (mt hlen.mp hall)]
    refine ⟨.inl ⟨hall, by simp [hnext]⟩, fun candle => ?_⟩
    rw [completes_iff he hdvd hn]
    constructor
    · exact fun hsome => absurd hsome.symm (Option.some_ne_none candle)
    · rintro ⟨rfl, -, first, second, hfirst, hsecond, -⟩
      exact absurd (hlen.mp (by simp [deliveredIn, hfirst, hsecond, hnew])) hall

theorem Delivered.spec_repeat {s : FxNewV1} {d : Candle} (h : Delivered pair (events ++ [e]))
    (he : e.candle.timestamp = seconds n) (hdvd : 900 ∣ start) (hn : n ∈ [start, start + 300, start + 600])
    (hold : firstDelivery events n = some d) (hpends : Pends events start (s.currentPending e)) :
    Pends (events ++ [e]) start ((s.aggregateM15 e).2.m5Pending e.pair) ∧
      ∀ candle, (s.aggregateM15 e).1 = some candle ↔ Completes events e candle := by
  have hall_iff : AllThree (events ++ [e]) start ↔ AllThree events start := by
    rw [allThree_iff, allThree_iff, deliveredIn_repeat he hold]
  have hnone : ∀ candle, none = some candle ↔ Completes events e candle := by
    intro candle
    rw [completes_iff he hdvd hn, hold]
    simp
  have hkept : s.currentPending e ≠ [] ∨ ¬AllThree events start →
      ∃ c ∈ s.currentPending e, c.timestamp = e.candle.timestamp := by
    intro hcase
    rcases hpends with ⟨-, hp⟩ | ⟨hall, hp | ⟨c, hc, hp⟩⟩
    · exact ⟨d, hp ▸ mem_deliveredIn.mpr ⟨n, hn, hold⟩, (firstDelivery_timestamp hold).trans he.symm⟩
    · exact absurd hcase (by simp [hp, hall])
    · refine ⟨c, by simp [hp], ?_⟩
      rw [hc, he, h.last_of_allThree he hn hall]
  by_cases hcase : s.currentPending e ≠ [] ∨ ¬AllThree events start
  · rw [aggregateM15_repeated (hkept hcase)]
    refine ⟨?_, hnone⟩
    rw [m5Pending_setPending, Pends, hall_iff, deliveredIn_repeat he hold]
    exact hpends
  · -- The quarter is complete, and its last candle comes once more.
    rw [not_or, not_not, not_not] at hcase
    obtain ⟨hempty, hall⟩ := hcase
    rw [aggregateM15_new (by simp [hempty]) (by simp [hempty]), hempty]
    refine ⟨.inr ⟨hall_iff.mpr hall, .inr ⟨e.candle, ?_, by simp⟩⟩, hnone⟩
    rw [he, h.last_of_allThree he hn hall]

theorem Delivered.spec {s : FxNewV1} (h : Delivered pair (events ++ [e]))
    (hpends : Pends events (bucketOf e.candle.timestamp) (s.currentPending e)) :
    Pends (events ++ [e]) (bucketOf e.candle.timestamp) ((s.aggregateM15 e).2.m5Pending e.pair) ∧
      ∀ candle, (s.aggregateM15 e).1 = some candle ↔ Completes events e candle := by
  obtain ⟨n, hgrid, he⟩ := h.grid e (by simp)
  obtain ⟨start, hstart⟩ : ∃ start, bucketOf e.candle.timestamp = start := ⟨_, rfl⟩
  have hbucket : n - n % 900 = start := by rw [← hstart, he, bucketOf_seconds]
  have hdvd : 900 ∣ start := by omega
  have hn : n ∈ [start, start + 300, start + 600] := by
    simp only [List.mem_cons, List.not_mem_nil, or_false]
    omega
  rw [hstart] at hpends ⊢
  rcases hold : firstDelivery events n with _ | d
  · exact h.spec_new he hstart hdvd hn hold hpends
  · exact h.spec_repeat he hdvd hn hold hpends

/-! ## Runs -/

/-- What one event leaves pending is found by the next one, unless it begins another quarter. -/
theorem Delivered.pends_next {d : PriceEvent} {s : FxNewV1} (h : Delivered pair (events ++ [d] ++ [e]))
    (hpends : Pends (events ++ [d]) (bucketOf d.candle.timestamp) (s.m5Pending pair)) :
    Pends (events ++ [d]) (bucketOf e.candle.timestamp) (s.currentPending e) := by
  obtain ⟨m, hm, hd⟩ := h.grid d (by simp)
  obtain ⟨n, hn, he⟩ := h.grid e (by simp)
  have hle : m ≤ n := by
    rw [← seconds_le, ← hd, ← he]
    exact (List.pairwise_append.mp h.ordered).2.2 d (by simp) e (by simp)
  have hdvd : 900 ∣ bucketOf d.candle.timestamp := by
    rw [hd, bucketOf_seconds]
    omega
  have hkept : s.currentPending e =
      if bucketOf d.candle.timestamp = bucketOf e.candle.timestamp then s.m5Pending pair else [] := by
    rw [currentPending, h.pair e (by simp)]
    rcases hp : s.m5Pending pair with _ | ⟨c, cs⟩
    · simp
    · have hc : bucketOf c.timestamp = bucketOf d.candle.timestamp := hpends.bucket hdvd (by simp [hp])
      by_cases hsame : bucketOf d.candle.timestamp = bucketOf e.candle.timestamp <;> simp [hc, hsame]
  rw [hkept]
  by_cases hsame : bucketOf d.candle.timestamp = bucketOf e.candle.timestamp
  · rw [if_pos hsame, ← hsame]
    exact hpends
  · rw [if_neg hsame]
    have hlater : ∀ k, bucketOf e.candle.timestamp ≤ k → firstDelivery (events ++ [d]) k = none := by
      intro k hk
      have hm : m < k := by
        rw [hd, he, bucketOf_seconds, bucketOf_seconds] at hsame
        rw [he, bucketOf_seconds] at hk
        omega
      rw [firstDelivery_concat, h.before.not_later hd hm, hd, if_neg (mt seconds_inj.mp hm.ne)]
      rfl
    refine .inl ⟨fun hall => hall.some (by simp) (hlater _ le_rfl), ?_⟩
    exact (deliveredIn_eq_nil hlater).symm

theorem Delivered.pends {s : FxNewV1} (hs : s.m5Pending pair = []) (h : Delivered pair (events ++ [e])) :
    Pends events (bucketOf e.candle.timestamp) ((aggregator.after s events).currentPending e) := by
  induction events using List.reverseRecOn generalizing e with
  | nil =>
    have hempty : s.currentPending e = [] := by
      rw [currentPending, h.pair e (by simp), hs]
      rfl
    refine .inl ⟨fun hall => hall.some (n := bucketOf e.candle.timestamp) (by simp) rfl, ?_⟩
    exact hempty
  | append_singleton events d ih =>
    have hspec := (h.before.spec (ih h.before)).1
    rw [h.pair d (by simp)] at hspec
    rw [Lib.Machine.after_concat]
    exact h.pends_next hspec

/-- The answers are the candles of the complete quarters, one for each, in the order of the quarters. -/
structure Emits (events : List PriceEvent) (answers : List (Option Candle)) : Prop where
  sound : ∀ candle, some candle ∈ answers →
    ∃ start, 900 ∣ start ∧ candle.timestamp = seconds start ∧ AllThree events start
  complete : ∀ start, 900 ∣ start → AllThree events start →
    ∃ candle, some candle ∈ answers ∧ candle.timestamp = seconds start
  once : (answers.filterMap id).Pairwise fun c d => c.timestamp < d.timestamp

theorem AllThree.concat (h : AllThree events start) : AllThree (events ++ [e]) start := fun n hn => by
  obtain ⟨d, hd, htime⟩ := h n hn
  exact ⟨d, List.mem_append_left _ hd, htime⟩

/-- A candle that completes a quarter is one of the quarter, and comes for the first time. -/
theorem allThree_of_concat (he : e.candle.timestamp = seconds n) (hall : AllThree (events ++ [e]) start)
    (hbefore : ¬AllThree events start) :
    n ∈ [start, start + 300, start + 600] ∧ firstDelivery events n = none := by
  by_contra hnot
  refine hbefore fun m hm => ?_
  obtain ⟨d, hd, htime⟩ := hall m hm
  rcases List.mem_append.mp hd with hd | hd
  · exact ⟨d, hd, htime⟩
  · obtain rfl := List.mem_singleton.mp hd
    obtain rfl : n = m := seconds_inj.mp (he.symm.trans htime)
    by_contra hnone
    refine hnot ⟨hm, firstDelivery_eq_none.mpr fun d hd htime => hnone ⟨d, hd, htime⟩⟩

theorem Emits.next {answers : List (Option Candle)} {answer : Option Candle} (hemits : Emits events answers)
    (h : Delivered pair (events ++ [e])) (hanswer : ∀ candle, answer = some candle ↔ Completes events e candle) :
    Emits (events ++ [e]) (answers ++ [answer]) := by
  obtain ⟨n, hgrid, he⟩ := h.grid e (by simp)
  -- A quarter whose third candle arrives was not complete before.
  have hthird : ∀ candle, answer = some candle → ∃ start, 900 ∣ start ∧ candle.timestamp = seconds start ∧
      AllThree (events ++ [e]) start ∧ n = start + 600 ∧ firstDelivery events (start + 600) = none := by
    intro candle hsome
    obtain ⟨start, first, second, hdvd, hfirst, hsecond, hnew, htime, rfl⟩ := (hanswer candle).mp hsome
    refine ⟨start, hdvd, rfl, ?_, seconds_inj.mp (he.symm.trans htime), hnew⟩
    rw [allThree_iff]
    simp [deliveredIn, firstDelivery_concat, hfirst, hsecond, hnew, htime]
  refine ⟨fun candle hmem => ?_, fun start hdvd hall => ?_, ?_⟩
  · rcases List.mem_append.mp hmem with hmem | hmem
    · obtain ⟨start, hdvd, htime, hall⟩ := hemits.sound candle hmem
      exact ⟨start, hdvd, htime, hall.concat⟩
    · obtain ⟨start, hdvd, htime, hall, -⟩ := hthird candle (List.mem_singleton.mp hmem).symm
      exact ⟨start, hdvd, htime, hall⟩
  · by_cases hbefore : AllThree events start
    · obtain ⟨candle, hmem, htime⟩ := hemits.complete start hdvd hbefore
      exact ⟨candle, List.mem_append_left _ hmem, htime⟩
    · obtain ⟨hn, hnew⟩ := allThree_of_concat he hall hbefore
      obtain ⟨rfl, first, second, hfirst, hsecond⟩ := h.third_of_allThree he hn hall
      have hsome : answer = some (m15Of first second e.candle start) :=
        (hanswer _).mpr ⟨start, first, second, hdvd, hfirst, hsecond, hnew, he, rfl⟩
      exact ⟨m15Of first second e.candle start, List.mem_append_right _ (by simp [hsome]), rfl⟩
  · rw [List.filterMap_append, List.pairwise_append]
    refine ⟨hemits.once, ?_, fun c hc d hd => ?_⟩
    · cases answer <;> simp
    · obtain ⟨start, hdvd, htime, hall⟩ := hemits.sound c (by simpa using hc)
      obtain ⟨start', hdvd', htime', -, hn, hnew⟩ := hthird d (by simpa [eq_comm] using hd)
      have hne : start ≠ start' := fun heq => hall.some (by simp) (heq ▸ hnew)
      have hle : start + 600 ≤ n := by
        by_contra hlt
        exact hall.some (by simp) (h.not_later he (not_le.mp hlt))
      rw [htime, htime']
      exact lt_of_le_of_ne (seconds_le.mpr (by omega)) (mt seconds_inj.mp hne)

theorem Delivered.emits {s : FxNewV1} (hs : s.m5Pending pair = []) (h : Delivered pair events) :
    Emits events (aggregator.outputs s events) := by
  induction events using List.reverseRecOn with
  | nil =>
    exact ⟨by simp [Lib.Machine.outputs], fun start _ hall => absurd rfl (hall.some (n := start) (by simp)), .nil⟩
  | append_singleton events e ih =>
    rw [Lib.Machine.outputs_append]
    exact (ih h.before).next h (h.spec (h.pends hs)).2

theorem Delivered.pending_bounded {s : FxNewV1} (hs : s.m5Pending pair = []) (h : Delivered pair events) :
    ((aggregator.after s events).m5Pending pair).length ≤ 2 ∧
      ∀ c ∈ (aggregator.after s events).m5Pending pair, ∀ d ∈ (aggregator.after s events).m5Pending pair,
        bucketOf c.timestamp = bucketOf d.timestamp := by
  rcases List.eq_nil_or_concat' events with rfl | ⟨events, e, rfl⟩
  · simp [hs]
  · have hpends := (h.spec (h.pends hs)).1
    have hdvd : 900 ∣ bucketOf e.candle.timestamp := by
      obtain ⟨n, -, he⟩ := h.grid e (by simp)
      rw [he, bucketOf_seconds]
      omega
    rw [h.pair e (by simp)] at hpends
    rw [Lib.Machine.after_concat]
    exact ⟨hpends.length_le, fun c hc d hd => (hpends.bucket hdvd hc).trans (hpends.bucket hdvd hd).symm⟩

theorem Delivered.of_prefix {before : List PriceEvent} (h : Delivered pair events) (hp : before <+: events) :
    Delivered pair before where
  pair e he := h.pair e (hp.subset he)
  grid e he := h.grid e (hp.subset he)
  ordered := h.ordered.sublist hp.sublist

/-- What was delivered first stays so. -/
theorem firstDelivery_append_of_some {after : List PriceEvent} (h : firstDelivery events n = some c) :
    firstDelivery (events ++ after) n = some c := by
  rw [firstDelivery, List.find?_append, Option.map_or, ← firstDelivery, h]
  rfl

/-- The three candles of a quarter that an event completes. -/
theorem deliveredIn_completed {before after : List PriceEvent} {first second : Candle}
    (hfirst : firstDelivery before start = some first) (hsecond : firstDelivery before (start + 300) = some second)
    (hnew : firstDelivery before (start + 600) = none) (htime : e.candle.timestamp = seconds (start + 600)) :
    deliveredIn (before ++ e :: after) start = [first, second, e.candle] := by
  have hthird : firstDelivery (before ++ [e]) (start + 600) = some e.candle := by
    rw [firstDelivery_concat, hnew, if_pos htime]
    rfl
  rw [List.append_cons, deliveredIn, firstDelivery_append_of_some (firstDelivery_append_of_some hfirst),
    firstDelivery_append_of_some (firstDelivery_append_of_some hsecond), firstDelivery_append_of_some hthird]
  rfl

theorem sum_volumeOf_three (a b c : Candle) :
    ([a, b, c].map volumeOf).sum = volumeOf a + volumeOf b + volumeOf c := by
  simp [add_assoc]

/-- Where the volumes are words, the candle that the code makes is the one of the quarter. -/
theorem thirdArrives_iff_completes {before after : List PriceEvent} (hfit : VolumesFit (before ++ e :: after))
    (candle : Candle) : ThirdArrives before e candle ↔ Completes before e candle := by
  constructor
  · rintro ⟨start, first, second, hdvd, hfirst, hsecond, hnew, htime, hquarter⟩
    exact ⟨start, first, second, hdvd, hfirst, hsecond, hnew, htime, (quarterOf_iff.mp hquarter).1⟩
  · rintro ⟨start, first, second, hdvd, hfirst, hsecond, hnew, htime, heq⟩
    have hthree : deliveredIn (before ++ e :: after) start = [first, second, e.candle] :=
      deliveredIn_completed hfirst hsecond hnew htime
    have hsum := hfit start hdvd (allThree_iff.mpr (by rw [hthree]; rfl))
    rw [hthree, sum_volumeOf_three] at hsum
    exact ⟨start, first, second, hdvd, hfirst, hsecond, hnew, htime, quarterOf_iff.mpr ⟨heq, hsum⟩⟩

theorem Aggregated.volumesFit {s : FxNewV1} (h : Aggregated s pair events) : VolumesFit events := by
  intro start hdvd hall
  obtain ⟨candle, hmem, htime⟩ := (h.complete start hdvd).mpr hall
  obtain ⟨i, hi⟩ := List.mem_iff_getElem?.mp hmem
  have hlt : i < events.length := by
    rw [← Lib.Machine.length_outputs aggregator s events]
    exact (List.getElem?_eq_some_iff.mp hi).1
  have hsplit : events = events.take i ++ events[i] :: events.drop (i + 1) := by
    rw [← List.drop_eq_getElem_cons hlt, List.take_append_drop]
  have hlength : (events.take i).length = i := by
    rw [List.length_take]
    omega
  obtain ⟨start', first, second, -, hfirst, hsecond, hnew, hthird, hquarter⟩ :=
    (h.answered _ _ _ hsplit candle).mp (by rw [hlength]; exact hi)
  obtain rfl : start' = start := seconds_inj.mp (hquarter.timestamp.symm.trans htime)
  rw [hsplit, deliveredIn_completed hfirst hsecond hnew hthird, sum_volumeOf_three]
  exact (quarterOf_iff.mp hquarter).2

/-- The aggregation is right just when the volumes of every complete quarter sum to a word. -/
theorem aggregated_iff (name : String) (pairs : List Pair) (h : Delivered pair events) :
    Aggregated (new name pairs) pair events ↔ VolumesFit events := by
  refine ⟨Aggregated.volumesFit, fun hfit => ⟨?_, fun start hdvd => ?_, (h.emits rfl).once, fun before hp => ?_⟩⟩
  · rintro before e after rfl candle
    have hupto : Delivered pair (before ++ [e]) := h.of_prefix ⟨after, by simp⟩
    rw [thirdArrives_iff_completes hfit, ← (hupto.spec (hupto.pends (s := new name pairs) rfl)).2 candle,
      Lib.Machine.outputs_append, List.getElem?_append_right (by simp [Lib.Machine.length_outputs]),
      Lib.Machine.length_outputs, Nat.sub_self]
    exact Option.some_inj
  · have hemits := h.emits (s := new name pairs) rfl
    constructor
    · rintro ⟨candle, hmem, htime⟩
      obtain ⟨start', -, htime', hall⟩ := hemits.sound candle hmem
      rwa [seconds_inj.mp (htime.symm.trans htime')]
    · exact hemits.complete start hdvd
  · exact (h.of_prefix hp).pending_bounded rfl

end

/-! ## A quarter with a repeated candle -/

/-- An M5 candle of the sample pair. -/
def sampleM5 (minute : Int) (close : Decimal) (volume : Option UInt64) : PriceEvent where
  pair := "USD_JPY"
  exchange := .gmoFx
  candle := { pair := "USD_JPY", exchange := .gmoFx, timeframe := "M5", «open» := close, high := close + 1
              low := close - 1, close, volume, bestBid := none, bestAsk := none, timestamp := seconds (60 * minute) }
  timestamp := seconds (60 * minute + 300)

/-- Three candles of one bar, two of them shown again. -/
def sampleQuarter : List PriceEvent :=
  [sampleM5 0 150 (some 3), sampleM5 5 152 none, sampleM5 5 160 (some 9), sampleM5 10 149 (some 4),
    sampleM5 10 149 (some 4)]

theorem sampleQuarter_aggregated : Aggregated (new "fx_new" ["USD_JPY"]) "USD_JPY" sampleQuarter := by
  have htimes : ∀ e ∈ sampleQuarter, ∃ n : Int, n ∈ [0, 300, 600] ∧ e.candle.timestamp = seconds n := by
    intro e he
    simp only [sampleQuarter, List.mem_cons, List.not_mem_nil, or_false] at he
    rcases he with rfl | rfl | rfl | rfl | rfl
    · exact ⟨0, by decide, rfl⟩
    · exact ⟨300, by decide, rfl⟩
    · exact ⟨300, by decide, rfl⟩
    · exact ⟨600, by decide, rfl⟩
    · exact ⟨600, by decide, rfl⟩
  have hdelivered : Delivered "USD_JPY" sampleQuarter := by
    refine ⟨by simp [sampleQuarter, sampleM5], fun e he => ?_, by simp [sampleQuarter, sampleM5, seconds]⟩
    obtain ⟨n, hn, htime⟩ := htimes e he
    simp only [List.mem_cons, List.not_mem_nil, or_false] at hn
    exact ⟨n, by omega, htime⟩
  refine (aggregated_iff "fx_new" ["USD_JPY"] hdelivered).mpr fun start hdvd hall => ?_
  obtain ⟨e, he, htime⟩ := hall start (by simp)
  obtain ⟨n, hn, htime'⟩ := htimes e he
  obtain rfl : start = n := seconds_inj.mp (htime.symm.trans htime')
  obtain rfl : start = 0 := by
    simp only [List.mem_cons, List.not_mem_nil, or_false] at hn
    omega
  decide +kernel

example : (aggregator.outputs (new "fx_new" ["USD_JPY"]) sampleQuarter).map (Option.map Candle.volume) =
    [none, none, none, some (some 7), none] := by
  decide +kernel

/-! ## A quarter with too much volume -/

/-- Three candles whose volumes pass the word. -/
def sampleVolumes : List PriceEvent :=
  [sampleM5 0 150 (some 9223372036854775808), sampleM5 5 152 (some 9223372036854775808), sampleM5 10 149 (some 4)]

/-- The volume of the quarter is given as 4. -/
theorem sampleVolumes_wrapped : ¬Aggregated (new "fx_new" ["USD_JPY"]) "USD_JPY" sampleVolumes := by
  intro h
  have hsum := h.volumesFit 0 (by decide) (allThree_iff.mpr (by decide +kernel))
  exact absurd hsum (by decide +kernel)

end FxNewV1

end AutoTrader
