import AutoTrader.Lib.Machine
import AutoTrader.Market.PriceStore

/-!
# The feed watchdog

`FeedFreshnessTracker.evaluate` keeps of each feed whether it is stale and when it was last alerted. `freshness` is the
tracker as a machine over the calls of `evaluate`; a round of the watchdog, `round`, makes one such call for each feed
that the price store expects, with `observeFeed`.
-/

namespace AutoTrader

/-! ## Suspends -/

/-- A gap between two readings of the wall clock. -/
structure SuspendGap where
  startedAt : DateTime
  resumedAt : DateTime
  gapSecs : Int
  deriving DecidableEq, Repr

/-- How far the wall clock went back. -/
def wallClockBackwardSecs (previous now : DateTime) : Option Int :=
  if now < previous then some (numSeconds (previous - now)) else none

/-- A gap of at least `suspendGapSecs`. -/
def detectSuspendGap (previousWallClock nowWallClock : DateTime) (suspendGapSecs : UInt64) : Option SuspendGap :=
  let gapSecs := numSeconds (nowWallClock - previousWallClock)
  if gapSecs < suspendGapSecs.toInt64.toInt then none
  else some { startedAt := previousWallClock, resumedAt := nowWallClock, gapSecs }

/-- Until when alerts are held back after a suspend. -/
structure SuspendGraceTracker where
  graceUntil : Option DateTime
  deriving DecidableEq, Repr

namespace SuspendGraceTracker

/-- No suspend was seen yet. -/
def new : SuspendGraceTracker := ⟨none⟩

/-- Alerts are held back for `staleAfterSecs` from the end of a suspend. -/
def noteSuspendResumed (resumedAt : DateTime) (staleAfterSecs : UInt64) : SuspendGraceTracker :=
  ⟨some (resumedAt + seconds staleAfterSecs.toInt64.toInt)⟩

/-- Alerts are held back now. -/
def inGracePeriod (g : SuspendGraceTracker) (now : DateTime) : Bool := g.graceUntil.any (now < ·)

end SuspendGraceTracker

/-! ## Freshness -/

/-- The name of the exchange and the pair. -/
abbrev FeedId := String × String

/-- What is known of a feed at a check. -/
structure FeedObservation where
  key : FeedId
  marketClosed : Bool
  lastTickAt : Option DateTime
  deriving DecidableEq, Repr

/-- A feed that is stale: since when, and when it was last alerted. -/
structure StaleState where
  since : DateTime
  lastAlertAt : DateTime
  deriving DecidableEq, Repr

/-- What a check of a feed reports. -/
inductive FreshnessEvent where
  | newlyStale (since : DateTime)
  | stillStale (since : DateTime)
  | recovered (since recoveredAt : DateTime)
  deriving DecidableEq, Repr

/-- The latest tick, or the start of the watchdog where there is none, is too old. -/
def FeedObservation.isStaleNow (obs : FeedObservation) (now watchdogStartedAt : DateTime) (staleAfterSecs : UInt64) :
    Bool :=
  match obs.lastTickAt with
  | some ts => staleAfterSecs.toInt64.toInt ≤ numSeconds (now - ts)
  | none => staleAfterSecs.toInt64.toInt ≤ numSeconds (now - watchdogStartedAt)

/-- The state of every feed that is stale. -/
structure FeedFreshnessTracker where
  states : FeedId → Option StaleState

namespace FeedFreshnessTracker

/-- No feed is stale yet. -/
def new : FeedFreshnessTracker := ⟨fun _ => none⟩

/-- The state of one feed is replaced. -/
def set (s : FeedFreshnessTracker) (key : FeedId) (state : Option StaleState) : FeedFreshnessTracker :=
  ⟨Function.update s.states key state⟩

/-- One check of a feed. -/
def evaluate (s : FeedFreshnessTracker) (obs : FeedObservation) (now watchdogStartedAt : DateTime)
    (staleAfterSecs realertIntervalSecs : UInt64) (suppress : Bool) : Option FreshnessEvent × FeedFreshnessTracker :=
  if suppress then (none, s)
  else if obs.marketClosed then (none, s.set obs.key none)
  else
    match s.states obs.key, obs.isStaleNow now watchdogStartedAt staleAfterSecs with
    | none, false => (none, s)
    | none, true => (some (.newlyStale now), s.set obs.key (some { since := now, lastAlertAt := now }))
    | some state, true =>
      if realertIntervalSecs.toInt64.toInt ≤ numSeconds (now - state.lastAlertAt) then
        (some (.stillStale state.since), s.set obs.key (some { since := state.since, lastAlertAt := now }))
      else (none, s)
    | some state, false => (some (.recovered state.since now), s.set obs.key none)

end FeedFreshnessTracker

/-- A call of `evaluate`. -/
structure FreshnessCall where
  obs : FeedObservation
  now : DateTime
  watchdogStartedAt : DateTime
  staleAfterSecs : UInt64
  suppress : Bool
  deriving DecidableEq

/-- One call of `evaluate` after the other, with one interval between the alerts. -/
def freshness (realertIntervalSecs : UInt64) :
    Lib.Machine FeedFreshnessTracker FreshnessCall (Option FreshnessEvent) where
  step c s := s.evaluate c.obs c.now c.watchdogStartedAt c.staleAfterSecs realertIntervalSecs c.suppress
  warm c s := (s.evaluate c.obs c.now c.watchdogStartedAt c.staleAfterSecs realertIntervalSecs c.suppress).2

/-! ## Rounds -/

/-- The settings of the watchdog. -/
structure FeedWatchdogConfig where
  suspendGapSecs : UInt64
  staleAfterSecs : UInt64
  realertIntervalSecs : UInt64
  excludeExchanges : List String

/-- A market counts as closed only for `staleAfterSecs` after it was seen to close. -/
def isEffectivelyMarketClosed (statusIsClosed : Bool) (marketClosedAt : Option DateTime) (now : DateTime)
    (staleAfterSecs : UInt64) : Bool :=
  statusIsClosed && marketClosedAt.any fun t => numSeconds (now - t) < staleAfterSecs.toInt64.toInt

/-- What the price store knows of a feed. -/
def observeFeed (h : FeedHealth) (now : DateTime) (staleAfterSecs : UInt64) : FeedObservation where
  key := (h.exchange, h.pair)
  marketClosed := isEffectivelyMarketClosed (h.status = .marketClosed) h.marketClosedAt now staleAfterSecs
  lastTickAt := h.lastTickAgeSecs.map fun age => now - seconds age

/-- The exchange of a feed. -/
def parseFeedExchange (h : FeedHealth) : Option Exchange :=
  [.oanda, .bitflyerCfd, .gmoFx].find? fun exchange : Exchange => exchange.asStr = h.exchange

/-- What an alert is built from. -/
structure FeedAlert where
  exchange : Exchange
  pair : Pair
  event : FreshnessEvent
  lastTickAt : Option DateTime
  deriving DecidableEq, Repr

/-- The state of the watchdog between two checks. -/
structure WatchdogState where
  previousWallClock : DateTime
  freshness : FeedFreshnessTracker
  suspendGrace : SuspendGraceTracker

/-- The state at the start of the watchdog. -/
def WatchdogState.new (watchdogStartedAt : DateTime) : WatchdogState where
  previousWallClock := watchdogStartedAt
  freshness := .new
  suspendGrace := .new

section

variable (config : FeedWatchdogConfig) (watchdogStartedAt : DateTime)

/-- The feeds that a round looks at. -/
def watchedFeeds (store : PriceStore) (now : DateTime) : List FeedHealth :=
  (store.healthAt now).filter fun h => h.exchange ∉ config.excludeExchanges

/-- The call of `evaluate` for a feed. -/
def freshnessCall (grace : SuspendGraceTracker) (now : DateTime) (h : FeedHealth) : FreshnessCall where
  obs := observeFeed h now config.staleAfterSecs
  now
  watchdogStartedAt
  staleAfterSecs := config.staleAfterSecs
  suppress := grace.inGracePeriod now

/-- All feeds of a check. -/
def checkFeedFreshness (tracker : FeedFreshnessTracker) (grace : SuspendGraceTracker) (now : DateTime)
    (store : PriceStore) : List FeedAlert × FeedFreshnessTracker :=
  let health := watchedFeeds config store now
  let calls := health.map (freshnessCall config watchdogStartedAt grace now)
  let machine := freshness config.realertIntervalSecs
  let alerts := (health.zip (machine.outputs tracker calls)).filterMap fun a => do
    let event ← a.2
    let exchange ← parseFeedExchange a.1
    some { exchange, pair := a.1.pair, event, lastTickAt := (observeFeed a.1 now config.staleAfterSecs).lastTickAt }
  (alerts, machine.after tracker calls)

/-- The grace period at a round: a suspend gap before it begins a new one. -/
def WatchdogState.suspendGraceAt (s : WatchdogState) (now : DateTime) : SuspendGraceTracker :=
  if (detectSuspendGap s.previousWallClock now config.suspendGapSecs).isSome then
    .noteSuspendResumed now config.staleAfterSecs
  else s.suspendGrace

/-- One round: the suspend gap that is alerted, and the alerts for the feeds. -/
def WatchdogState.round (s : WatchdogState) (now : DateTime) (store : PriceStore) :
    (Option SuspendGap × List FeedAlert) × WatchdogState :=
  match wallClockBackwardSecs s.previousWallClock now with
  | some _ => ((none, []), { s with previousWallClock := now })
  | none =>
    let suspendGap := detectSuspendGap s.previousWallClock now config.suspendGapSecs
    let suspendGrace := s.suspendGraceAt config now
    let (alerts, tracker) := checkFeedFreshness config watchdogStartedAt s.freshness suspendGrace now store
    ((suspendGap, alerts), { previousWallClock := now, freshness := tracker, suspendGrace })

end

/-- The watchdog: a round finds the time and the price store. -/
def watchdog (config : FeedWatchdogConfig) (watchdogStartedAt : DateTime) :
    Lib.Machine WatchdogState (DateTime × PriceStore) (Option SuspendGap × List FeedAlert) where
  step round s := s.round config watchdogStartedAt round.1 round.2
  warm round s := (s.round config watchdogStartedAt round.1 round.2).2

end AutoTrader
