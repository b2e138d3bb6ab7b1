import AutoTrader.App.FeedWatchdog
import AutoTrader.Lib.Keyed
import AutoTrader.Lib.Signed64
import Mathlib.Data.List.Chain

/-!
# Episodes of staleness

What the calls of `evaluate` say of a feed: episode after episode, each with alerts that are an interval apart and with
one beginning (`Repeats`). The tracker is a machine of one feed for each key (`tracker_step`), so what is said of a feed
depends on its own calls (`feedTrace_eq`), and of an open episode it keeps when it began and when it was last alerted
(`items_repeat`). The interval is an unsigned word that is read as a signed one, so all this holds of every run just
when it is below `2 ^ 63` (`alerts_follow_iff`).
-/

namespace AutoTrader

/-! ## Episodes -/

/-- What is seen of a feed at a call: an event, or that the market is found closed. -/
inductive FeedItem where
  | event (now : DateTime) (e : FreshnessEvent)
  | cleared
  deriving DecidableEq, Repr

/-- The alerts of an episode: the first one, and the others with the same beginning. -/
def alerts (since : DateTime) (again : List DateTime) : List FeedItem :=
  .event since (.newlyStale since) :: again.map fun now => .event now (.stillStale since)

/-- Consecutive alerts are at least the interval apart. -/
def Spaced (intervalSecs : Int) (times : List DateTime) : Prop :=
  times.IsChain fun a b => a + seconds intervalSecs ≤ b

/-- Episode after episode. An episode ends with a recovery that names its beginning or with the market found closed, and
the last one may go on. -/
inductive Repeats (intervalSecs : Int) : List FeedItem → Prop where
  | nil : Repeats intervalSecs []
  | closed {rest} : Repeats intervalSecs rest → Repeats intervalSecs (.cleared :: rest)
  | ended {since again ending rest} : Spaced intervalSecs (since :: again) →
      (ending = .cleared ∨ ∃ now, ending = .event now (.recovered since now)) → Repeats intervalSecs rest →
      Repeats intervalSecs (alerts since again ++ ending :: rest)
  | running {since again} : Spaced intervalSecs (since :: again) → Repeats intervalSecs (alerts since again)

/-! ## Runs -/

section

variable (realertIntervalSecs : UInt64)

/-- The calls for a feed with what they answer. -/
def feedTrace (key : FeedId) (calls : List FreshnessCall) : List (FreshnessCall × Option FreshnessEvent) :=
  ((freshness realertIntervalSecs).trace .new calls).filter fun c => c.1.obs.key = key

/-- What is seen at a call. -/
def feedItem (c : FreshnessCall × Option FreshnessEvent) : List FeedItem :=
  match c.2 with
  | some e => [.event c.1.now e]
  | none => if c.1.obs.marketClosed && !c.1.suppress then [.cleared] else []

/-- The events of each feed come in episodes; a suppressed call changes nothing; and what is seen of a feed does not
depend on the calls for the others. -/
structure AlertsFollow (calls : List FreshnessCall) : Prop where
  episodes : ∀ key, Repeats realertIntervalSecs.toNat ((feedTrace realertIntervalSecs key calls).flatMap feedItem)
  suppressed : ∀ before c, before ++ [c] <+: calls → c.suppress →
    (freshness realertIntervalSecs).step c ((freshness realertIntervalSecs).after .new before) =
      (none, (freshness realertIntervalSecs).after .new before)
  alone : ∀ key, feedTrace realertIntervalSecs key calls =
    feedTrace realertIntervalSecs key (calls.filter fun c => c.obs.key = key)

end

/-! ## One feed -/

section

variable (realertIntervalSecs : UInt64)

/-- What a call does to the state of its feed. -/
def feedStep (c : FreshnessCall) (state : Option StaleState) : Option FreshnessEvent × Option StaleState :=
  let (event, tracker) := (FeedFreshnessTracker.mk fun _ => state).evaluate c.obs c.now c.watchdogStartedAt
    c.staleAfterSecs realertIntervalSecs c.suppress
  (event, tracker.states c.obs.key)

/-- The tracker of one feed. -/
def feedFreshness : Lib.Machine (Option StaleState) FreshnessCall (Option FreshnessEvent) where
  step c state := feedStep realertIntervalSecs c state
  warm c state := (feedStep realertIntervalSecs c state).2

end

section

variable {realertIntervalSecs : UInt64} {s : FeedFreshnessTracker} {c : FreshnessCall} {key : FeedId}

/-- What a call of one feed does: nothing, or it begins an episode, alerts again, or ends one. -/
inductive FeedStep (realertIntervalSecs : UInt64) (c : FreshnessCall) (state : Option StaleState) :
    Option FreshnessEvent × Option StaleState → Prop where
  | nothing : (c.obs.marketClosed && !c.suppress) = false → FeedStep realertIntervalSecs c state (none, state)
  | closes : (c.obs.marketClosed && !c.suppress) = true → FeedStep realertIntervalSecs c state (none, none)
  | begins : state = none →
      FeedStep realertIntervalSecs c state (some (.newlyStale c.now), some { since := c.now, lastAlertAt := c.now })
  | realerts {stale} : state = some stale →
      realertIntervalSecs.toInt64.toInt ≤ numSeconds (c.now - stale.lastAlertAt) →
      FeedStep realertIntervalSecs c state
        (some (.stillStale stale.since), some { since := stale.since, lastAlertAt := c.now })
  | recovers {stale} : state = some stale →
      FeedStep realertIntervalSecs c state (some (.recovered stale.since c.now), none)

/-- A call is a step of the feed it names. -/
theorem tracker_step (realertIntervalSecs : UInt64) (s : FeedFreshnessTracker) (c : FreshnessCall) :
    FeedStep realertIntervalSecs c (s.states c.obs.key) (feedStep realertIntervalSecs c (s.states c.obs.key)) ∧
      (freshness realertIntervalSecs).step c s = ((feedStep realertIntervalSecs c (s.states c.obs.key)).1,
        ⟨Function.update s.states c.obs.key (feedStep realertIntervalSecs c (s.states c.obs.key)).2⟩) := by
  show _ ∧ s.evaluate c.obs c.now c.watchdogStartedAt c.staleAfterSecs realertIntervalSecs c.suppress = _
  have hkeep : s = ⟨Function.update s.states c.obs.key (s.states c.obs.key)⟩ := by rw [Function.update_eq_self]
  unfold feedStep FeedFreshnessTracker.evaluate FeedFreshnessTracker.set
  rcases hsuppress : c.suppress with _ | _
  · rcases hclosed : c.obs.marketClosed with _ | _
    · rcases c.obs.isStaleNow c.now c.watchdogStartedAt c.staleAfterSecs with _ | _
      · rcases hstate : s.states c.obs.key with _ | stale
        · exact ⟨.nothing (by simp [hclosed]), by simpa [hstate] using hkeep⟩
        · exact ⟨by simpa using .recovers rfl, by simp⟩
      · rcases hstate : s.states c.obs.key with _ | stale
        · exact ⟨by simpa using .begins rfl, by simp⟩
        · by_cases hdue : realertIntervalSecs.toInt64.toInt ≤ numSeconds (c.now - stale.lastAlertAt)
          · exact ⟨by simpa [hdue] using .realerts rfl hdue, by simp [hdue]⟩
          · exact ⟨by simpa [hdue] using .nothing (by simp [hclosed]), by simpa [hdue, hstate] using hkeep⟩
    · exact ⟨by simpa using .closes (by simp [hclosed, hsuppress]), by simp⟩
  · exact ⟨.nothing (by simp [hsuppress]), by simp⟩

/-- What is seen of a feed are the answers to its calls by the tracker of one feed. -/
theorem feedTrace_eq (realertIntervalSecs : UInt64) (key : FeedId) (calls : List FreshnessCall) :
    feedTrace realertIntervalSecs key calls =
      (feedFreshness realertIntervalSecs).trace none (calls.filter fun c => c.obs.key = key) := by
  have hkeyed : (freshness realertIntervalSecs).outputs .new calls =
      ((feedFreshness realertIntervalSecs).keyed fun c => c.obs.key).outputs (fun _ => none) calls := by
    refine Lib.Machine.outputs_eq_of_sim (R := fun s states => s.states = states) ?_ calls rfl
    rintro c s states rfl
    rw [(tracker_step realertIntervalSecs s c).2]
    exact ⟨rfl, rfl⟩
  rw [← Lib.Machine.keyed_trace (feedFreshness realertIntervalSecs) (fun c => c.obs.key) key calls fun _ => none]
  unfold feedTrace Lib.Machine.trace
  rw [hkeyed]

end

/-! ## Episode after episode -/

section

variable {realertIntervalSecs : UInt64} {c : FreshnessCall} {state state' : Option StaleState}
  {event : Option FreshnessEvent} {items : List FeedItem} {intervalSecs : Int}

/-- Whole seconds have passed, unless none have to and the clock has gone back. -/
theorem add_seconds_le {intervalSecs : Nat} {last now : Int} (h : last ≤ now ∨ 0 < intervalSecs)
    (hdue : (intervalSecs : Int) ≤ numSeconds (now - last)) : last + seconds intervalSecs ≤ now := by
  unfold numSeconds at hdue
  have hle : last ≤ now := by
    rcases h with hle | hpos
    · exact hle
    · by_contra hlt
      have hback : 0 ≤ Int.tdiv (last - now) 1000000 := Int.tdiv_nonneg (by omega) (by decide)
      rw [show now - last = -(last - now) by omega, Int.neg_tdiv] at hdue
      omega
  rw [Int.tdiv_eq_ediv_of_nonneg (by omega)] at hdue
  show last + intervalSecs * 1000000 ≤ now
  omega

/-- What may follow in a state: after an open episode, what goes on with it. -/
def Continues (intervalSecs : Int) : Option StaleState → List FeedItem → Prop
  | none, items => Repeats intervalSecs items
  | some stale, items => ∀ again, Spaced intervalSecs (stale.since :: again) →
      (stale.since :: again).getLast? = some stale.lastAlertAt →
        Repeats intervalSecs (alerts stale.since again ++ items)

theorem Spaced.concat {times : List DateTime} {last now : DateTime} (h : Spaced intervalSecs times)
    (hlast : times.getLast? = some last) (hle : last + seconds intervalSecs ≤ now) :
    Spaced intervalSecs (times ++ [now]) := by
  refine List.isChain_append.mpr ⟨h, List.isChain_singleton now, ?_⟩
  rintro x hx y hy
  obtain rfl := Option.some.inj (hlast.symm.trans hx)
  obtain rfl := Option.some.inj hy
  exact hle

/-- What a call is seen to do goes before what follows it. -/
theorem FeedStep.continues (hlt : realertIntervalSecs.toNat < 2 ^ 63)
    (h : FeedStep realertIntervalSecs c state (event, state'))
    (hnow : (∀ stale, state = some stale → stale.lastAlertAt ≤ c.now) ∨ 0 < realertIntervalSecs.toNat)
    (hrest : Continues realertIntervalSecs.toNat state' items) :
    Continues realertIntervalSecs.toNat state (feedItem (c, event) ++ items) := by
  cases h with
  | nothing hopen =>
    simpa [feedItem, hopen] using hrest
  | closes hclosed =>
    rw [show feedItem (c, none) = [.cleared] from if_pos hclosed]
    rcases state with _ | stale
    · exact .closed hrest
    · exact fun again hspaced _ => .ended hspaced (.inl rfl) hrest
  | begins hnone =>
    subst hnone
    exact hrest [] (List.isChain_singleton c.now) rfl
  | @realerts stale hstate hdue =>
    subst hstate
    rw [Lib.toInt_toInt64 hlt] at hdue
    intro again hspaced hlast
    have hle := add_seconds_le (hnow.imp_left fun hle => hle stale rfl) hdue
    have hmore := hrest (again ++ [c.now]) (hspaced.concat hlast hle) (List.getLast?_concat (l := stale.since :: again))
    simpa [alerts, feedItem] using hmore
  | @recovers stale hstate =>
    subst hstate
    exact fun again hspaced _ => .ended hspaced (.inr ⟨c.now, rfl⟩) hrest

/-- An alert is given at the time of its call, so the last one is not after the calls that follow. -/
theorem FeedStep.lastAlertAt_le {calls : List FreshnessCall} (h : FeedStep realertIntervalSecs c state (event, state'))
    (hnow : ∀ stale, state = some stale → ∀ d ∈ c :: calls, stale.lastAlertAt ≤ d.now)
    (hlater : ∀ d ∈ calls, c.now ≤ d.now) :
    ∀ stale, state' = some stale → ∀ d ∈ calls, stale.lastAlertAt ≤ d.now := by
  intro stale hstale d hd
  cases h with
  | nothing _ => exact hnow stale hstale d (List.mem_cons_of_mem c hd)
  | closes _ => cases hstale
  | begins _ => cases hstale; exact hlater d hd
  | realerts _ _ => cases hstale; exact hlater d hd
  | recovers _ => cases hstale

/-- The calls come in order of time, the first ones not before the last alert. -/
def InOrder (state : Option StaleState) (calls : List FreshnessCall) : Prop :=
  calls.Pairwise (fun c d => c.now ≤ d.now) ∧ ∀ stale, state = some stale → ∀ c ∈ calls, stale.lastAlertAt ≤ c.now

theorem items_repeat (hlt : realertIntervalSecs.toNat < 2 ^ 63) (calls : List FreshnessCall) :
    ∀ state, InOrder state calls ∨ 0 < realertIntervalSecs.toNat → Continues realertIntervalSecs.toNat state
      (((feedFreshness realertIntervalSecs).trace state calls).flatMap feedItem) := by
  induction calls with
  | nil =>
    intro state _
    rcases state with _ | stale
    · exact .nil
    · intro again hspaced _
      simpa [Lib.Machine.trace] using Repeats.running hspaced
  | cons c calls ih =>
    intro state hordered
    have hdoes : FeedStep realertIntervalSecs c state (feedStep realertIntervalSecs c state) :=
      (tracker_step realertIntervalSecs ⟨fun _ => state⟩ c).1
    rw [Lib.Machine.trace_cons, List.flatMap_cons]
    refine hdoes.continues hlt ?_ (ih _ ?_)
    · exact hordered.imp_left fun h stale hstale => h.2 stale hstale c List.mem_cons_self
    · refine hordered.imp_left fun h => ?_
      obtain ⟨hlater, hrest⟩ := List.pairwise_cons.mp h.1
      exact ⟨hrest, hdoes.lastAlertAt_le h.2 hlater⟩

theorem alertsFollow_of_lt {calls : List FreshnessCall} (hlt : realertIntervalSecs.toNat < 2 ^ 63)
    (h : calls.Pairwise (fun c d => c.now ≤ d.now) ∨ 0 < realertIntervalSecs.toNat) :
    AlertsFollow realertIntervalSecs calls where
  episodes key := by
    rw [feedTrace_eq]
    refine items_repeat hlt _ none (h.imp_left fun hordered => ⟨hordered.filter _, fun stale hstale => ?_⟩)
    exact absurd hstale.symm (Option.some_ne_none stale)
  suppressed before c _ hsuppress := by
    show FeedFreshnessTracker.evaluate _ c.obs c.now c.watchdogStartedAt c.staleAfterSecs realertIntervalSecs
      c.suppress = _
    rw [FeedFreshnessTracker.evaluate, if_pos hsuppress]
  alone key := by
    rw [feedTrace_eq, feedTrace_eq, List.filter_filter]
    simp only [Bool.and_self]

/-- A second alert right after the first one of an episode is an interval after its beginning. -/
theorem Repeats.add_seconds_le {a b since since' : DateTime}
    (h : Repeats intervalSecs (.event a (.newlyStale since) :: .event b (.stillStale since') :: items)) :
    since + seconds intervalSecs ≤ b := by
  generalize hitems : FeedItem.event a (.newlyStale since) :: .event b (.stillStale since') :: items = all at h
  cases h with
  | nil => cases hitems
  | closed _ => cases hitems
  | @ended first again ending rest hspaced hending _ =>
    rcases again with _ | ⟨x, again⟩
    · simp only [alerts, List.map_nil, List.cons_append, List.nil_append, List.cons.injEq] at hitems
      rcases hending with rfl | ⟨now, rfl⟩
      · cases hitems.2.1
      · cases hitems.2.1
    · simp only [alerts, List.map_cons, List.cons_append, List.cons.injEq, FeedItem.event.injEq,
        FreshnessEvent.newlyStale.injEq] at hitems
      obtain ⟨⟨-, rfl⟩, ⟨rfl, -⟩, -⟩ := hitems
      exact (List.isChain_cons_cons.mp hspaced).1
  | @running first again hspaced =>
    rcases again with _ | ⟨x, again⟩
    · simp [alerts] at hitems
    · simp only [alerts, List.map_cons, List.cons.injEq, FeedItem.event.injEq,
        FreshnessEvent.newlyStale.injEq] at hitems
      obtain ⟨⟨-, rfl⟩, ⟨rfl, -⟩, -⟩ := hitems
      exact (List.isChain_cons_cons.mp hspaced).1

end

/-! ## Every interval -/

/-- A feed that is found stale. -/
def sampleStaleCall : FreshnessCall where
  obs := { key := ("bitflyer_cfd", "FX_BTC_JPY"), marketClosed := false, lastTickAt := some 0 }
  now := 0
  watchdogStartedAt := 0
  staleAfterSecs := 0
  suppress := false

/-- With a negative interval it is alerted twice at the same time. -/
theorem sampleStaleCall_twice {realertIntervalSecs : UInt64} (h : realertIntervalSecs.toInt64.toInt < 0) :
    (feedTrace realertIntervalSecs sampleStaleCall.obs.key [sampleStaleCall, sampleStaleCall]).flatMap feedItem =
      [.event 0 (.newlyStale 0), .event 0 (.stillStale 0)] := by
  have hstale : sampleStaleCall.obs.isStaleNow 0 0 0 = true := by decide
  have hdue : realertIntervalSecs.toInt64.toInt ≤ numSeconds 0 := h.le
  unfold sampleStaleCall at hstale ⊢
  simp [feedTrace, feedItem, Lib.Machine.trace, Lib.Machine.outputs, freshness, FeedFreshnessTracker.evaluate,
    FeedFreshnessTracker.new, FeedFreshnessTracker.set, hstale, hdue]

theorem not_alertsFollow {realertIntervalSecs : UInt64} (h : 2 ^ 63 ≤ realertIntervalSecs.toNat) :
    ¬AlertsFollow realertIntervalSecs [sampleStaleCall, sampleStaleCall] := by
  intro hfollow
  have hrepeats := hfollow.episodes sampleStaleCall.obs.key
  rw [sampleStaleCall_twice (Lib.toInt_toInt64_neg h)] at hrepeats
  have hle : (0 : Int) + realertIntervalSecs.toNat * 1000000 ≤ 0 := hrepeats.add_seconds_le
  omega

/-- The alerts of all runs in order of time are as they should be just when the interval is a signed number. -/
theorem alerts_follow_iff (realertIntervalSecs : UInt64) :
    (∀ calls, calls.Pairwise (fun c d => c.now ≤ d.now) → AlertsFollow realertIntervalSecs calls) ↔
      realertIntervalSecs.toNat < 2 ^ 63 := by
  constructor
  · intro h
    by_contra hge
    exact not_alertsFollow (not_lt.mp hge) (h _ (by simp))
  · exact fun hlt calls hordered => alertsFollow_of_lt hlt (.inl hordered)

theorem sampleStaleCall_realerted :
    [sampleStaleCall, sampleStaleCall].Pairwise (fun c d => c.now ≤ d.now) ∧
      ¬AlertsFollow 9223372036854775808 [sampleStaleCall, sampleStaleCall] :=
  ⟨by decide, not_alertsFollow (by decide)⟩

/-! ## Rounds of the watchdog -/

section

variable (config : FeedWatchdogConfig) (watchdogStartedAt : DateTime)

/-- The calls of `evaluate` in a round. -/
def WatchdogState.roundCalls (s : WatchdogState) (round : DateTime × PriceStore) : List FreshnessCall :=
  match wallClockBackwardSecs s.previousWallClock round.1 with
  | some _ => []
  | none => (watchedFeeds config round.2 round.1).map
      (freshnessCall config watchdogStartedAt (s.suspendGraceAt config round.1) round.1)

/-- The calls of `evaluate` in a run of the watchdog. -/
def watchdogCalls : WatchdogState → List (DateTime × PriceStore) → List FreshnessCall
  | _, [] => []
  | s, round :: rounds => s.roundCalls config watchdogStartedAt round ++
      watchdogCalls ((watchdog config watchdogStartedAt).step round s).2 rounds

/-- A round leaves the tracker as its calls do, and alerts of events of the tracker at a call for the feed. -/
theorem round_spec (s : WatchdogState) (round : DateTime × PriceStore) :
    ((watchdog config watchdogStartedAt).step round s).2.freshness =
        (freshness config.realertIntervalSecs).after s.freshness (s.roundCalls config watchdogStartedAt round) ∧
      ∀ a ∈ ((watchdog config watchdogStartedAt).step round s).1.2, ∃ c,
        (c, some a.event) ∈ (freshness config.realertIntervalSecs).trace s.freshness
          (s.roundCalls config watchdogStartedAt round) ∧ c.obs.key = (a.exchange.asStr, a.pair) := by
  obtain ⟨now, store⟩ := round
  show (s.round config watchdogStartedAt now store).2.freshness = _ ∧
    ∀ a ∈ (s.round config watchdogStartedAt now store).1.2, _
  unfold WatchdogState.round WatchdogState.roundCalls
  rcases wallClockBackwardSecs s.previousWallClock now with _ | _
  · refine ⟨rfl, fun a ha => ?_⟩
    obtain ⟨⟨h, event⟩, hmem, halert⟩ := List.mem_filterMap.mp ha
    obtain ⟨e, rfl, hrest⟩ := Option.bind_eq_some_iff.mp halert
    obtain ⟨exchange, hparse, hbuilt⟩ := Option.bind_eq_some_iff.mp hrest
    obtain rfl := Option.some.inj hbuilt
    have hname : exchange.asStr = h.exchange := by simpa using List.find?_some hparse
    refine ⟨freshnessCall config watchdogStartedAt (s.suspendGraceAt config now) now h, ?_, ?_⟩
    · unfold Lib.Machine.trace
      rw [List.zip_map_left]
      exact List.mem_map_of_mem hmem
    · show (h.exchange, h.pair) = (exchange.asStr, h.pair)
      rw [hname]
  · exact ⟨rfl, fun a ha => absurd ha List.not_mem_nil⟩

variable {config watchdogStartedAt}

/-- Every alert of a run is of an event of the tracker at a call for the feed. -/
theorem exists_call_of_alert {a : FeedAlert} : ∀ {rounds : List (DateTime × PriceStore)} {s : WatchdogState},
    a ∈ ((watchdog config watchdogStartedAt).outputs s rounds).flatMap Prod.snd → ∃ c,
      (c, some a.event) ∈ (freshness config.realertIntervalSecs).trace s.freshness
        (watchdogCalls config watchdogStartedAt s rounds) ∧ c.obs.key = (a.exchange.asStr, a.pair)
  | [], _, ha => absurd ha List.not_mem_nil
  | round :: rounds, s, ha => by
    obtain ⟨hafter, halerts⟩ := round_spec config watchdogStartedAt s round
    rw [watchdogCalls, Lib.Machine.trace_append, ← hafter]
    rw [Lib.Machine.outputs, List.flatMap_cons] at ha
    rcases List.mem_append.mp ha with hnow | hlater
    · obtain ⟨c, hc, hkey⟩ := halerts a hnow
      exact ⟨c, List.mem_append_left _ hc, hkey⟩
    · obtain ⟨c, hc, hkey⟩ := exists_call_of_alert hlater
      exact ⟨c, List.mem_append_right _ hc, hkey⟩

/-- Whatever the clock does, the alerts of a watchdog with an interval of at least one second are events of the tracker,
and these come in episodes, an interval apart. -/
theorem watchdog_alerts_follow (hpos : 0 < config.realertIntervalSecs.toNat)
    (hlt : config.realertIntervalSecs.toNat < 2 ^ 63) (rounds : List (DateTime × PriceStore)) :
    AlertsFollow config.realertIntervalSecs (watchdogCalls config watchdogStartedAt (.new watchdogStartedAt) rounds) ∧
      ∀ a ∈ ((watchdog config watchdogStartedAt).outputs (.new watchdogStartedAt) rounds).flatMap Prod.snd, ∃ c,
        (c, some a.event) ∈ feedTrace config.realertIntervalSecs (a.exchange.asStr, a.pair)
          (watchdogCalls config watchdogStartedAt (.new watchdogStartedAt) rounds) := by
  refine ⟨alertsFollow_of_lt hlt (.inr hpos), fun a ha => ?_⟩
  obtain ⟨c, hc, hkey⟩ := exists_call_of_alert ha
  exact ⟨c, List.mem_filter.mpr ⟨hc, by simpa using hkey⟩⟩

end

end AutoTrader
