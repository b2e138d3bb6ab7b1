import AutoTrader.Core.Event
import AutoTrader.Lib.Threads

/-!
# The price store

The latest tick of each feed and the feeds whose market is marked closed, behind two locks. A `PriceCall` is what is
done while one of them is held; `update` makes two of them, and others may come in between. `healthAt` reads both.
-/

namespace AutoTrader

open Lib (Prog)
open Lib.Prog (perform)

/-! ## Feeds -/

/-- The key of a feed. -/
structure FeedKey where
  exchange : Exchange
  pair : Pair
  deriving DecidableEq, Repr

/-- The latest tick of a feed. -/
structure LatestTick where
  price : Decimal
  bestBid : Option Decimal
  bestAsk : Option Decimal
  ts : DateTime
  deriving DecidableEq, Repr

/-- The states of a feed. -/
inductive FeedStatus where
  | healthy
  | stale
  | missing
  | marketClosed
  deriving DecidableEq, Repr

/-- What the health report says of a feed. -/
structure FeedHealth where
  exchange : String
  pair : String
  status : FeedStatus
  lastTickAgeSecs : Option Int
  marketClosedAt : Option DateTime
  deriving DecidableEq, Repr

/-- The age from which a feed is stale. -/
def staleThresholdSecs : Int := 60

/-- The whole seconds of a duration, toward zero. -/
def numSeconds (duration : Int) : Int := Int.tdiv duration 1000000

/-! ## The store -/

/-- The price store. -/
structure PriceStore where
  latest : FeedKey → Option LatestTick
  expected : List FeedKey
  marketClosed : FeedKey → Option DateTime

/-- A tick replaces an older one only. -/
def isNewerThanStored (existing : Option LatestTick) (incomingTs : DateTime) : Bool :=
  match existing with
  | some t => t.ts < incomingTs
  | none => true

namespace PriceStore

/-- The store before its first tick. -/
def new (expected : List FeedKey) : PriceStore where
  latest _ := none
  expected
  marketClosed _ := none

/-- A tick opens the market of its feed again. -/
def clearMarketClosedOnTick (w : PriceStore) (key : FeedKey) : PriceStore :=
  { w with marketClosed := Function.update w.marketClosed key none }

/-- A tick is stored where it is newer. -/
def storeIfNewer (w : PriceStore) (key : FeedKey) (tick : LatestTick) : PriceStore :=
  if isNewerThanStored (w.latest key) tick.ts then { w with latest := Function.update w.latest key (some tick) } else w

/-- The market of a feed is closed. -/
def insertMarketClosed (w : PriceStore) (key : FeedKey) (now : DateTime) : PriceStore :=
  { w with marketClosed := Function.update w.marketClosed key (some now) }

/-- The health of a feed. -/
def feedHealth (w : PriceStore) (now : DateTime) (key : FeedKey) : FeedHealth :=
  let marketClosedAt := w.marketClosed key
  let isClosed := marketClosedAt.isSome
  let (status, age) : FeedStatus × Option Int :=
    match w.latest key with
    | none => if isClosed then (.marketClosed, none) else (.missing, none)
    | some tick =>
      let rawAge := numSeconds (now - tick.ts)
      let ageSecs := max rawAge 0
      let status : FeedStatus :=
        if isClosed then .marketClosed else if ageSecs ≤ staleThresholdSecs then .healthy else .stale
      (status, some ageSecs)
  { exchange := key.exchange.asStr, pair := key.pair, status, lastTickAgeSecs := age, marketClosedAt }

/-- The health of every expected feed. -/
def healthAt (w : PriceStore) (now : DateTime) : List FeedHealth := w.expected.map (w.feedHealth now)

end PriceStore

/-! ## Writers -/

/-- What is done to the store while a lock is held. -/
inductive PriceCall where
  | clearMarketClosedOnTick (key : FeedKey)
  | storeIfNewer (key : FeedKey) (tick : LatestTick)
  | insertMarketClosed (key : FeedKey) (now : DateTime)
  deriving DecidableEq, Repr

/-- The feed that a call is about. -/
def PriceCall.key : PriceCall → FeedKey
  | .clearMarketClosedOnTick key | .storeIfNewer key _ | .insertMarketClosed key _ => key

/-- What each lock step does. -/
def PriceCall.effect (w : PriceStore) : PriceCall → PriceStore
  | .clearMarketClosedOnTick key => w.clearMarketClosedOnTick key
  | .storeIfNewer key tick => w.storeIfNewer key tick
  | .insertMarketClosed key now => w.insertMarketClosed key now

/-- The atomic steps of a writer. -/
def priceCalls : Lib.Iface where
  Call := PriceCall
  Ret _ := Unit

/-- `update`: two lock steps. -/
def update (key : FeedKey) (tick : LatestTick) : Prog priceCalls Unit := do
  let _ ← perform (I := priceCalls) (.clearMarketClosedOnTick key)
  perform (I := priceCalls) (.storeIfNewer key tick)

/-- `mark_market_closed`: one lock step. -/
def markMarketClosed (key : FeedKey) (now : DateTime) : Prog priceCalls Unit :=
  perform (I := priceCalls) (.insertMarketClosed key now)

/-- The feed of an event. -/
def PriceEvent.feedKey (event : PriceEvent) : FeedKey := ⟨event.exchange, event.pair⟩

/-- The close of the candle is the price of the feed. -/
def PriceEvent.latestTick (event : PriceEvent) : LatestTick where
  price := event.candle.close
  bestBid := event.candle.bestBid
  bestAsk := event.candle.bestAsk
  ts := event.timestamp

/-- What `handlePriceEvent` does first. -/
def updatePriceStoreFromCandlePath (event : PriceEvent) : Prog priceCalls Unit := update event.feedKey event.latestTick

/-- What a writer does with the store. -/
inductive StoreJob where
  | update (key : FeedKey) (tick : LatestTick)
  | priceEvent (event : PriceEvent)
  | markMarketClosed (key : FeedKey) (now : DateTime)

/-- The program of a job. -/
def StoreJob.run : StoreJob → Prog priceCalls Unit
  | .update key tick => AutoTrader.update key tick
  | .priceEvent event => updatePriceStoreFromCandlePath event
  | .markMarketClosed key now => AutoTrader.markMarketClosed key now

/-- The jobs of a writer one after the other. -/
def runJobs : List StoreJob → Prog priceCalls Unit
  | [] => pure ()
  | job :: jobs => do
    job.run
    runJobs jobs

/-- What each step does to the store. -/
def priceSys : Lib.Sys priceCalls PriceStore Empty where
  respond _ w c _ w' := w' = PriceCall.effect w c
  move _ m _ := m.elim

end AutoTrader
