import AutoTrader.Db.Summary
import AutoTrader.Lib.Prog
import AutoTrader.Sim.Candles
import AutoTrader.Sim.Join
import Mathlib.Data.List.DropRight

/-!
# The command `backfill`

For every date of a range, the command fetches the bid and the ask klines, joins them into bars and saves the bars. A
`Fetch` is a program that reads the clock, sleeps, sends requests and writes to the database, or panics. The client
spaces its requests and retries a failed one; its `next_request_at`, which only the command uses, is passed from one
request to the next.
-/

namespace AutoTrader.Sim

open Lib (Iface Prog)

variable {D : Type}

/-! ## Calls -/

/-- The two sides of a price. -/
inductive PriceType where
  | bid
  | ask
  deriving DecidableEq, Repr

/-- The side, as the query of the exchange names it. -/
def PriceType.asQueryValue : PriceType → String
  | bid => "BID"
  | ask => "ASK"

/-- What comes of a request: a failure, a status that is no success, or a body. -/
inductive KlineAnswer where
  | sendFailed (e : String)
  | httpStatus (status : String)
  | unparseable (e : String)
  | body (status : Int) (data : List KlineRaw)

/-- What a backfill counted. -/
structure BackfillReport where
  days : Nat
  saved : Nat
  oneSided : Nat
  invalid : Nat
  /-- The fetches that failed, each as its date and side. -/
  failed : List String
  deriving DecidableEq, Repr

/-- The report before the first day. -/
def BackfillReport.start : BackfillReport := ⟨0, 0, 0, 0, []⟩

/-- What the backfill calls. -/
inductive FetchCall where
  /-- The configuration, the connection and the tables. -/
  | prepare
  /-- `reqwest::Client::builder`. -/
  | buildHttp
  /-- `Instant::now`, in microseconds. -/
  | now
  | sleepUntil (deadline : Nat)
  | get (url : String)
  | upsertBars (bars : List Bar)
  | printBackfill (report : BackfillReport)

/-- What each call returns. -/
@[reducible] def FetchCall.Ret : FetchCall → Type
  | prepare => Except String Unit
  | buildHttp => Except String Unit
  | now => Nat
  | sleepUntil _ => Unit
  | get _ => KlineAnswer
  | upsertBars _ => Except StoreError Nat
  | printBackfill _ => Except String Unit

/-- The interface of the backfill. -/
@[reducible] def FetchCalls : Iface := ⟨FetchCall, FetchCall.Ret⟩

/-- A program of the backfill that can panic. -/
abbrev Fetch := ExceptT Panic (Prog FetchCalls)

/-- One call. -/
def fetching (c : FetchCall) : Fetch c.Ret := liftM (Prog.perform (I := FetchCalls) c)

/-- Sleeping from now on for a duration. -/
def sleep (duration : Nat) : Fetch Unit := do
  let now ← fetching .now
  fetching (.sleepUntil (now + duration))

/-! ## The client -/

/-- The client of the kline endpoint. -/
structure GmoKlineClient where
  baseUrl : String
  minInterval : Nat
  retryDelays : List Nat

/-- One second between two requests. -/
def gmoMinRequestInterval : Nat := 1000000

/-- The waits before the second, third and fourth attempt. -/
def gmoRetryDelays : List Nat := [2000000, 4000000, 8000000]

/-- The client of a base url, with the trailing slashes taken off. -/
def GmoKlineClient.new (baseUrl : String) : GmoKlineClient where
  baseUrl := String.ofList (baseUrl.toList.rdropWhile (· = '/'))
  minInterval := gmoMinRequestInterval
  retryDelays := gmoRetryDelays

/-- How decimals, times and dates are read and written. -/
structure FetchFormats (D : Type) extends CandleFormats D where
  /-- `%Y%m%d`. -/
  dateText : NaiveDate → String

namespace GmoKlineClient

variable (client : GmoKlineClient) (f : FetchFormats D)

/-- The time from which the next request may start, after a wait for this one. -/
def throttle (nextRequestAt : Option Nat) : Fetch (Option Nat) := do
  let now ← fetching .now
  let startAt := max (nextRequestAt.getD now) now
  let wait := startAt - now
  if wait ≠ 0 then sleep wait
  return some (startAt + client.minInterval)

/-- One request, and what its answer says. -/
def tryFetch (url : String) : Fetch (Except Error (List KlineRaw)) := do
  match ← fetching (.get url) with
  | .sendFailed e => return .error [.lit "failed to send gmo kline request: ", .arg e]
  | .httpStatus status => return .error [.lit "failed to fetch gmo kline: unexpected http status ", .arg status]
  | .unparseable e => return .error [.lit "failed to parse gmo kline response body: ", .arg e]
  | .body status data =>
    if status ≠ 0 then
      return .error [.lit "failed to fetch gmo kline: unexpected api status ", .arg (toString status)]
    else return .ok data

/-- The address of one day and side. -/
@[irreducible] def url (date : NaiveDate) (priceType : PriceType) : String :=
  client.baseUrl ++ "/v1/klines?symbol=USD_JPY&priceType=" ++ priceType.asQueryValue ++ "&interval=5min&date=" ++
    f.dateText date

/-- The error of a day whose attempts all failed, with the last one in it. -/
@[irreducible] def exhausted (date : NaiveDate) (priceType : PriceType) (lastErr : Error) : Error :=
  [.lit "failed to fetch gmo kline for date=", .arg (f.dateText date), .lit " priceType=",
    .lit priceType.asQueryValue, .lit " after ", .arg (toString (client.retryDelays.length + 1)),
    .lit " attempts: "] ++ lastErr

/-- The attempts that are left, each with the delay before it. -/
def attempts (date : NaiveDate) (priceType : PriceType) :
    List (Option Nat) → Error → Option Nat → Fetch (Except Error (List Kline) × Option Nat)
  | [], lastErr, next => return (.error (client.exhausted f date priceType lastErr), next)
  | delay :: delays, _, next => do
    if let some delay := delay then sleep delay
    let next ← client.throttle next
    match ← tryFetch (client.url f date priceType) with
    | .ok data =>
      let klines ← Prog.result (parseKlines f.ops data)
      return (.ok klines, next)
    | .error e => attempts date priceType delays e next

/-- The klines of a day and side, retried after each of the waits. -/
def fetchDay (date : NaiveDate) (priceType : PriceType) (next : Option Nat) :
    Fetch (Except Error (List Kline) × Option Nat) :=
  client.attempts f date priceType (none :: client.retryDelays.map some) [] next

/-! ## A day -/

/-- What `failed` has for a fetch. -/
@[irreducible] def failedEntry (date : NaiveDate) (priceType : PriceType) : String :=
  f.dateText date ++ " " ++ priceType.asQueryValue

/-- The entry of a fetch, if it failed. -/
def failedOf (date : NaiveDate) (priceType : PriceType) : Except Error (List Kline) → List String
  | .ok _ => []
  | .error _ => [failedEntry f date priceType]

/-- The outcome of the join, or what failed. -/
def fetchAndJoinDay (date : NaiveDate) (next : Option Nat) :
    Fetch (Except (List String) JoinOutcome × Option Nat) := do
  let bid ← client.fetchDay f date .bid next
  let ask ← client.fetchDay f date .ask bid.2
  match bid.1, ask.1 with
  | .ok bidKlines, .ok askKlines => return (.ok (joinAndValidate bidKlines askKlines), ask.2)
  | bidResult, askResult => return (.error (failedOf f date .bid bidResult ++ failedOf f date .ask askResult), ask.2)

/-- The bars of a joined day are stored, and its counts enter the report. -/
def saveDayOutcome (outcome : JoinOutcome) (report : BackfillReport) : Fetch (Except StoreError BackfillReport) := do
  let report :=
    { report with oneSided := report.oneSided + outcome.oneSided, invalid := report.invalid + outcome.invalid }
  if outcome.bars.isEmpty then return .ok report
  else
    match ← fetching (.upsertBars outcome.bars) with
    | .ok affected => return .ok { report with saved := report.saved + affected }
    | .error e => return .error e

/-! ## A range -/

/-- Why a backfill ended without success. -/
inductive BackfillError where
  | fetchIncomplete (failed : List String)
  | store (e : StoreError)

/-- 262142-12-31. -/
def naiveDateMax : NaiveDate := 95026236

/-- The next day, where `NaiveDate` has one. -/
def succOpt (date : NaiveDate) : Option NaiveDate := if date < naiveDateMax then some (date + 1) else none

/-- One round of the loop over the dates. -/
def backfillDay (date : NaiveDate) (report : BackfillReport) (next : Option Nat) :
    Fetch (Except StoreError BackfillReport × Option Nat) := do
  let report := { report with days := report.days + 1 }
  let joined ← client.fetchAndJoinDay f date next
  match joined.1 with
  | .ok outcome =>
    let saved ← saveDayOutcome outcome report
    return (saved, joined.2)
  | .error failed => return (.ok { report with failed := report.failed ++ failed }, joined.2)

/-- The loop of `backfill`, with so many rounds left. -/
def backfillDays («to» : NaiveDate) :
    Nat → NaiveDate → BackfillReport → Option Nat → Fetch (Except StoreError BackfillReport × Option Nat)
  | 0, _, report, next => return (.ok report, next)
  | n + 1, date, report, next =>
    if «to» < date then return (.ok report, next)
    else do
      let day ← client.backfillDay f date report next
      match day.1 with
      | .error e => return (.error e, day.2)
      | .ok report =>
        if date = «to» then return (.ok report, day.2)
        else
          match succOpt date with
          | some date => backfillDays «to» n date report day.2
          | none => return (.ok report, day.2)

/-- Every day from `from` to `to`. -/
def backfill («from» «to» : NaiveDate) (next : Option Nat) :
    Fetch (Except BackfillError BackfillReport × Option Nat) := do
  let done ← client.backfillDays f «to» ((«to» - «from»).toNat + 1) «from» .start next
  match done.1 with
  | .error e => return (.error (.store e), done.2)
  | .ok report =>
    if report.failed.isEmpty then return (.ok report, done.2)
    else return (.error (.fetchIncomplete report.failed), done.2)

/-! ## The command -/

/-- The report with that of one more date. -/
def addReport (total r : BackfillReport) : BackfillReport :=
  ⟨total.days + r.days, total.saved + r.saved, total.oneSided + r.oneSided, total.invalid + r.invalid,
    total.failed ++ r.failed⟩

/-- The loop of `run_backfill_loop`, with so many rounds left: the total, or the exit code. -/
def backfillLoop («to» : NaiveDate) : Nat → NaiveDate → BackfillReport → Option Nat → Fetch (Except Nat BackfillReport)
  | 0, _, total, _ => return .ok total
  | n + 1, date, total, next => do
    let day ← client.backfill f date date next
    match day.1 with
    | .error (.store _) => return .error 1
    | result =>
      let total :=
        match result with
        | .ok r => addReport total r
        | .error (.fetchIncomplete failed) =>
          { total with days := total.days + 1, failed := total.failed ++ failed }
        | .error (.store _) => total
      if date = «to» then return .ok total
      else
        match succOpt date with
        | some date => backfillLoop «to» n date total day.2
        | none => return .ok total

end GmoKlineClient

/-- 2023-10-28. -/
def gmoKlineMinDate : NaiveDate := 19658

/-- The order of the two dates, and the first date with data. -/
def validateBackfillRange («from» «to» : NaiveDate) : Except Nat Unit :=
  if «to» < «from» then .error 1 else if «from» < gmoKlineMinDate then .error 1 else .ok ()

/-- The command: the preparations, the range and the backfill. -/
def runBackfillLoop (client : GmoKlineClient) (f : FetchFormats D) («from» «to» : NaiveDate) :
    Fetch (Except Nat BackfillReport) := do
  match ← fetching .prepare with
  | .error _ => return .error 1
  | .ok () =>
    match ← fetching .buildHttp with
    | .error _ => return .error 1
    | .ok () => client.backfillLoop f «to» ((«to» - «from»).toNat + 1) «from» .start none

/-- The report is printed, and the exit code says whether every fetch succeeded. -/
def writeBackfillResult (total : BackfillReport) : Fetch Nat := do
  match ← fetching (.printBackfill total) with
  | .error _ => return 1
  | .ok () => return if total.failed.isEmpty then 0 else 1

/-- The exit code of `backfill --from --to`. -/
def runBackfill (client : GmoKlineClient) (f : FetchFormats D) («from» «to» : NaiveDate) : Fetch Nat := do
  match validateBackfillRange «from» «to» with
  | .error code => return code
  | .ok () =>
    match ← runBackfillLoop client f «from» «to» with
    | .error code => return code
    | .ok total => writeBackfillResult total

end AutoTrader.Sim
