import AutoTrader.App.PaperReads
import AutoTrader.Core.Swap
import AutoTrader.Db.Summary
import AutoTrader.Lib.Machine

/-!
# The overnight task

Every minute the task looks at the date, and charges the open paper trades when it is not the date it remembers. An
`OvernightTick` is what one such look finds: the time, and the database at each of its reads, where others may have
written in between. `processDateChange` answers with the calls of `applyFeeToTrade`, or with nothing if the accounts
cannot be listed; then the date is looked at again at the next tick.
-/

namespace AutoTrader

/-- The daily rate of the overnight fee. -/
def bitflyerOvernightFeeRate : Decimal := 4 / 10000

/-- What one pass of the overnight fees reads. -/
structure OvernightTick where
  now : DateTime
  accounts : DbRead
  /-- The database when the open trades of an account are read. -/
  openTrades : Uuid → DbRead
  /-- The database when the fee of a trade is applied. -/
  fees : Uuid → DbRead

/-- What became of one call of `applyFeeToTrade`. -/
inductive OvernightOutcome where
  | noRate
  | zeroFee
  | failed (e : Error)
  | closedMidTick
  | charged (fee : Decimal)
  deriving DecidableEq, Repr

/-- A call of `applyFeeToTrade` for the midnight `eventAt`. -/
structure OvernightCall where
  accountId : Uuid
  trade : Trade
  eventAt : DateTime
  outcome : OvernightOutcome
  deriving DecidableEq, Repr

/-- The exchanges with an overnight fee. -/
def overnightFeeAppliesToExchange : Exchange → Bool
  | .bitflyerCfd | .gmoFx => true
  | .oanda => false

/-- The exchange of an account that is charged: a paper account of one with fees. -/
def resolveOvernightFeeExchange (pac : TradingAccount) : Option Exchange :=
  if pac.live then none
  else if !overnightFeeAppliesToExchange pac.exchange then none
  else some pac.exchange

/-- The fee of a trade for one night. -/
def computeFee (exchange : Exchange) (trade : Trade) (swapConfig : GmoFxSwapConfig) : Option Decimal :=
  match exchange with
  | .bitflyerCfd => some (Lib.truncate (trade.entryPrice * trade.quantity * bitflyerOvernightFeeRate))
  | .gmoFx =>
    match swapConfig.rates trade.pair with
    | none => none
    | some rate => some (computeDailySwap rate trade.direction trade.quantity)
  | .oanda => none -- not reached: `resolveOvernightFeeExchange` leaves these accounts out

/-- The transaction that applies the fee, by the exchange. -/
def overnightFeeTx (exchange : Exchange) (accountId tradeId : Uuid) (fee : Decimal) (eventAt : DateTime) :
    Tx (Option Decimal) :=
  match exchange with
  | .bitflyerCfd => applyOvernightFee accountId tradeId fee
  | .gmoFx => applySwapFee accountId tradeId fee eventAt
  | .oanda => pure none -- not reached

namespace OvernightTick

variable (t : OvernightTick) (swapConfig : GmoFxSwapConfig)

/-- The day of the pass. -/
def today : NaiveDate := t.now.dateNaive

/-- The accounts that the pass is given. -/
def listAccounts : Except Error (List TradingAccount) := t.accounts >>= listActiveOrWithOpenTrades.answer t.now

/-- The open trades of an account that the pass is given. -/
def listOpenTrades (accountId : Uuid) : Except Error (List Trade) :=
  t.openTrades accountId >>= (getOpenTradesByAccount accountId).answer t.now

/-- The answer of the transaction of a fee. -/
def applyFee (exchange : Exchange) (accountId tradeId : Uuid) (fee : Decimal) (eventAt : DateTime) :
    Except Error (Option Decimal) :=
  t.fees tradeId >>= (overnightFeeTx exchange accountId tradeId fee eventAt).answer t.now

/-- What becomes of the fee of a trade. -/
def overnightOutcome (exchange : Exchange) (eventAt : DateTime) (accountId : Uuid) (trade : Trade) :
    OvernightOutcome :=
  match computeFee exchange trade swapConfig with
  | none => .noRate
  | some fee =>
    if fee = 0 then .zeroFee
    else
      match t.applyFee exchange accountId trade.id fee eventAt with
      | .error e => .failed e
      | .ok none => .closedMidTick
      | .ok (some _) => .charged fee

/-- The fee of a trade, with what became of it. -/
def applyFeeToTrade (exchange : Exchange) (eventAt : DateTime) (accountId : Uuid) (trade : Trade) : OvernightCall :=
  ⟨accountId, trade, eventAt, t.overnightOutcome swapConfig exchange eventAt accountId trade⟩

/-- The fees of an account; a read that fails leaves them out. -/
def applyFeesToAccount (eventAt : DateTime) (pac : TradingAccount) : List OvernightCall :=
  match resolveOvernightFeeExchange pac with
  | none => []
  | some exchange =>
    match t.listOpenTrades pac.id with
    | .error _ => []
    | .ok openTrades => openTrades.map (t.applyFeeToTrade swapConfig exchange eventAt pac.id)

/-- The calls for the midnight that `date` begins with, unless the accounts cannot be listed. -/
def processDateChange (date : NaiveDate) : Option (List OvernightCall) :=
  match t.listAccounts with
  | .error _ => none
  | .ok accounts => some (accounts.flatMap (t.applyFeesToAccount swapConfig (day date)))

/-- One look at the date: the calls, and the date that is remembered next. -/
def look (lastDate : NaiveDate) : List OvernightCall × NaiveDate :=
  if t.today = lastDate then ([], lastDate)
  else
    match t.processDateChange swapConfig t.today with
    | none => ([], lastDate)
    | some calls => (calls, t.today)

end OvernightTick

/-- The task: from the date it remembers, one look at the date after the other. -/
def overnight (swapConfig : GmoFxSwapConfig) : Lib.Machine NaiveDate OvernightTick (List OvernightCall) where
  step t lastDate := t.look swapConfig lastDate
  warm t lastDate := (t.look swapConfig lastDate).2

end AutoTrader
