import AutoTrader.App.PaperReads
import AutoTrader.Core.Sfd
import AutoTrader.Lib.Machine

/-!
# The hourly SFD task

Every minute the task looks at the clock, and charges the open positions for the hours that have begun since the
hour it remembers. A `SfdTick` is what one such look finds: the time, the database at each of its reads, where others
may have written in between, and the prices. `processTick` answers with the calls of `applySfdToTrade` and the hour
that is remembered next.
-/

namespace AutoTrader

/-- The microseconds of an hour. -/
def hour : Int := seconds 3600

/-- Hours that a pass catches up at most. -/
def sfdMaxCatchUpHours : Int := 24

/-- The age from which a feed is too old for the fee. -/
def sfdStaleThresholdSecs : Nat := 300

/-- What one pass of the SFD fees reads. -/
structure SfdTick where
  now : DateTime
  accounts : DbRead
  count : DbRead
  fxAge : Option Nat
  spotAge : Option Nat
  fxBidAsk : Option (Decimal × Decimal)
  spotBidAsk : Option (Decimal × Decimal)
  /-- The database when the open trades of an account are read for an hour. -/
  openTrades : DateTime → Uuid → DbRead
  /-- The database when the fee of a trade is applied for an hour. -/
  fees : DateTime → Uuid → DbRead

/-- What became of one call of `applySfdToTrade`. -/
inductive SfdOutcome where
  | notSubject
  | zeroFee
  | notYetOpen
  | failed (e : Error)
  | closedMidTick
  | charged (fee : Decimal)
  deriving DecidableEq, Repr

/-- A call of `applySfdToTrade` for the hour that ends at `eventAt`. -/
structure SfdCall where
  accountId : Uuid
  trade : Trade
  eventAt : DateTime
  outcome : SfdOutcome
  deriving DecidableEq, Repr

/-- The full hour of a time, if its nanoseconds fit into 64 bits. -/
def truncateToHour (now : DateTime) : Option DateTime :=
  if -9223372036854775808 ≤ now * 1000 ∧ now * 1000 ≤ 9223372036854775807 then some (now - now % hour) else none

/-- The middle of a tick. -/
def midPrice (bid ask : Decimal) : Decimal := (bid + ask) / 2

/-- Both feeds are young enough. -/
def bothFeedsFresh (fxAge spotAge : Option Nat) : Bool :=
  fxAge.any (· ≤ sfdStaleThresholdSecs) && spotAge.any (· ≤ sfdStaleThresholdSecs)

/-- The hour to charge from, and how many hours there are to charge. -/
def clampCatchUp (lh currentHour : DateTime) : DateTime × Int :=
  let pending := Int.tdiv (currentHour - lh) hour
  if pending ≤ sfdMaxCatchUpHours then (lh, pending) else (currentHour - sfdMaxCatchUpHours * hour, sfdMaxCatchUpHours)

/-- There is a paper account that the fee can apply to. -/
def hasPaperBitflyerAccount (accounts : List TradingAccount) : Bool :=
  accounts.any fun pac => !pac.live && pac.exchange = .bitflyerCfd

/-- The open trades that the fee applies to. -/
def countOpenBitflyerPaperFxBtcJpyTrades : Tx Nat := do
  let db ← get
  let joined (r : TradeRow) : Bool := (db.accounts.find? r.accountId).any fun a => !a.live && a.exchange = .bitflyerCfd
  return (db.trades.rows.filter fun r => r.pair = "FX_BTC_JPY" && r.status = .open && joined r).length

/-- Only `FX_BTC_JPY` is charged. -/
def tradeIsSubjectToBitflyerSfd (pair : Pair) : Bool := pair = "FX_BTC_JPY"

namespace SfdTick

variable (t : SfdTick)

/-- The accounts that the pass is given. -/
def listAccounts : Except Error (List TradingAccount) := t.accounts >>= listActiveOrWithOpenTrades.answer t.now

/-- The number of trades to charge. -/
def openTargetCount : Except Error Nat := t.count >>= countOpenBitflyerPaperFxBtcJpyTrades.answer t.now

/-- The middles of both feeds, where both are fresh. -/
def fetchFreshMidPrices : Option (Decimal × Decimal) :=
  if bothFeedsFresh t.fxAge t.spotAge then do
    let (b1, a1) ← t.fxBidAsk
    let (b2, a2) ← t.spotBidAsk
    some (midPrice b1 a1, midPrice b2 a2)
  else none

/-- The answer of the transaction of a fee. -/
def applyFee (accountId tradeId : Uuid) (fee : Decimal) (eventAt : DateTime) : Except Error (Option Decimal) :=
  t.fees eventAt tradeId >>= (applySfdFee accountId tradeId fee eventAt).answer t.now

/-- What happens to a trade in the hour after `lh`. -/
def sfdOutcome (accountId : Uuid) (trade : Trade) (lh : DateTime) (fxMid spotMid : Decimal) : SfdOutcome :=
  if !tradeIsSubjectToBitflyerSfd trade.pair then .notSubject
  else
    let notional := trade.entryPrice * trade.quantity
    let fee := computeHourlySfd
      { fxPrice := fxMid, spotPrice := spotMid, positionNotional := notional, direction := trade.direction }
    if fee = 0 then .zeroFee
    else
      let eventAt := lh + hour
      if trade.entryAt > eventAt then .notYetOpen
      else
        match t.applyFee accountId trade.id fee eventAt with
        | .error e => .failed e
        | .ok none => .closedMidTick
        | .ok (some _) => .charged fee

/-- The fee of a trade for an hour, with what became of it. -/
def applySfdToTrade (accountId : Uuid) (trade : Trade) (lh : DateTime) (fxMid spotMid : Decimal) : SfdCall :=
  ⟨accountId, trade, lh + hour, t.sfdOutcome accountId trade lh fxMid spotMid⟩

/-- The fees of an account for an hour. -/
def applySfdToAccount (pac : TradingAccount) (lh : DateTime) (fxMid spotMid : Decimal) : List SfdCall :=
  if pac.live then []
  else if pac.exchange ≠ .bitflyerCfd then []
  else
    match t.openTrades lh pac.id >>= (getOpenTradesByAccount pac.id).answer t.now with
    | .error _ => []
    | .ok openTrades => openTrades.map fun trade => t.applySfdToTrade pac.id trade lh fxMid spotMid

/-- The calls for `pending` hours from `lh` on, and the last of these hours. -/
def applyPendingHours (accounts : List TradingAccount) (fxMid spotMid : Decimal) :
    Nat → DateTime → List SfdCall × DateTime
  | 0, lh => ([], lh)
  | pending + 1, lh =>
    let rest := applyPendingHours accounts fxMid spotMid pending (lh + hour)
    (accounts.flatMap (fun pac => t.applySfdToAccount pac lh fxMid spotMid) ++ rest.1, rest.2)

/-- One pass: the hours since the last one are charged. -/
def processTick (lastHour : Option DateTime) : List SfdCall × Option DateTime :=
  match truncateToHour t.now with
  | none => ([], lastHour)
  | some currentHour =>
    match lastHour with
    | none => ([], some currentHour)
    | some lh =>
      if lh + hour > currentHour then ([], lastHour)
      else
        let (lh, pending) := clampCatchUp lh currentHour
        match t.listAccounts with
        | .error _ => ([], lastHour)
        | .ok accounts =>
          if !hasPaperBitflyerAccount accounts then ([], some currentHour)
          else
            match t.openTargetCount with
            | .error _ => ([], lastHour)
            | .ok openTargetCount =>
              if openTargetCount = 0 then ([], some currentHour)
              else
                match t.fetchFreshMidPrices with
                | none => ([], lastHour)
                | some (fxMid, spotMid) =>
                  let (calls, lh) := t.applyPendingHours accounts fxMid spotMid pending.toNat lh
                  (calls, some lh)

end SfdTick

/-- The task: from the hour it remembers, one look at the clock after the other. -/
def sfdAccrual : Lib.Machine (Option DateTime) SfdTick (List SfdCall) where
  step t lastHour := t.processTick lastHour
  warm t lastHour := (t.processTick lastHour).2

end AutoTrader
