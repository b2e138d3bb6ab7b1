import AutoTrader.Db.Queries
import AutoTrader.Lib.Threads
import AutoTrader.Executor.PositionSizer

/-!
# What the executor calls

The executor calls an exchange (`ApiCall`), the database (`Query`, each one statement or one
transaction), and a few clocks and stores. A program over these calls is an `Exec`, which can fail
with an `Error`. The waits between two calls of the source are not calls: time passes between any
two of them.

`worldSys E` is the world the calls run in, for a model `E` of the exchange: a query commits what its
`Tx` does or fails without a trace, the other answers are free.
-/

namespace AutoTrader

open Lib (Iface Prog Protocol Sys)
open Lib.Prog (Meets Meets.bind MeetsE MeetsE.bindLift Only OnlyE.bindLift)

/-! ## The exchange API -/

/-- The text of an error of the exchange API. -/
abbrev ApiError := String

/-- The side of an order. -/
inductive Side where
  | buy
  | sell
  deriving DecidableEq, Repr

/-- The type of an order. -/
inductive ChildOrderType where
  | market
  | limit
  deriving DecidableEq, Repr

/-- How long an order is in force. -/
inductive TimeInForce where
  | gtc
  | ioc
  | fok
  deriving DecidableEq, Repr

/-- An order request. -/
structure SendChildOrderRequest where
  productCode : String
  childOrderType : ChildOrderType
  side : Side
  size : Decimal
  price : Option Decimal
  minuteToExpire : Option Nat
  timeInForce : Option TimeInForce
  closePositionId : Option String
  deriving DecidableEq, Repr

/-- The states of a child order. -/
inductive ChildOrderState where
  | active
  | completed
  | canceled
  | expired
  | rejected
  deriving DecidableEq, Repr

/-- A child order, as `get_child_orders` answers it. -/
structure ChildOrder where
  averagePrice : Decimal
  executedSize : Decimal
  childOrderState : ChildOrderState
  deriving DecidableEq, Repr

/-- An execution, as `get_executions` answers it. -/
structure Execution where
  price : Decimal
  size : Decimal
  commission : Decimal
  deriving DecidableEq, Repr

/-- A position, as `get_positions` answers it. -/
structure ExchangePosition where
  productCode : String
  side : String
  size : Decimal
  deriving DecidableEq, Repr

/-- What the exchange says of a stop order. -/
inductive StopOrderStatus where
  | active
  | executed (price commission : Decimal)
  | gone
  deriving DecidableEq, Repr

/-- The calls of the exchange's API. -/
inductive ApiCall where
  | sendChildOrder (req : SendChildOrderRequest)
  | getChildOrders (productCode childOrderAcceptanceId : String)
  | getExecutions (productCode childOrderAcceptanceId : String)
  | getPositions (productCode : String)
  | cancelChildOrder (productCode childOrderAcceptanceId : String)
  | resolvePositionId (productCode : String) (after : DateTime) (expectedSide : Side) (expectedSize : Decimal)
  | fetchCloseSfd (productCode : String)
  | placeStopOrder (productCode : String) (closeSide : Side) (size triggerPrice : Decimal)
      (positionId : Option String)
  | cancelStopOrder (productCode stopOrderId : String)
  | stopOrderStatus (productCode stopOrderId : String)

/-- The answer to a call that succeeded; the answer of `send_child_order` is the acceptance id. -/
@[reducible] def ApiCall.Ok : ApiCall → Type
  | .sendChildOrder _ => String
  | .getChildOrders _ _ => List ChildOrder
  | .getExecutions _ _ => List Execution
  | .getPositions _ => List ExchangePosition
  | .cancelChildOrder _ _ => Unit
  | .resolvePositionId _ _ _ _ => Option String
  | .fetchCloseSfd _ => Decimal
  | .placeStopOrder _ _ _ _ _ => String
  | .cancelStopOrder _ _ => Unit
  | .stopOrderStatus _ _ => StopOrderStatus

/-- What each call of the API returns. -/
@[reducible] def ApiCall.Ret (c : ApiCall) : Type := Except ApiError c.Ok

/-! ## Programs -/

/-- What the trading code calls. -/
inductive Call where
  | api (c : ApiCall)
  | db (q : Query)
  /-- The latest bid and ask of the price store. -/
  | latestBidAsk (exchange : Exchange) (pair : Pair)
  /-- The age of the latest tick in seconds. -/
  | lastTickAge (exchange : Exchange) (pair : Pair)
  /-- `Utc::now()` of the process. -/
  | utcNow
  /-- `Uuid::new_v4()`. -/
  | newUuid
  /-- How many passes of a polling loop begin before its timeout. -/
  | pollPasses

/-- What each call returns. -/
@[reducible] def Call.Ret : Call → Type
  | .api c => c.Ret
  | .db q => Except Error q.Ok
  | .latestBidAsk _ _ => Option (Decimal × Decimal)
  | .lastTickAge _ _ => Option Nat
  | .utcNow => DateTime
  | .newUuid => Uuid
  | .pollPasses => Nat

/-- The interface of the executor. -/
@[reducible] def Calls : Iface := ⟨Call, Call.Ret⟩

/-- A program of the trading code that can fail. -/
abbrev Exec := ExceptT Error (Prog Calls)

variable {α ε : Type}

/-- The answer of the exchange, be it an error. -/
def api (c : ApiCall) : Prog Calls (Except ApiError c.Ok) := Prog.perform (I := Calls) (.api c)

/-- The operator `?` on an answer of the exchange. -/
def orThrow : Except ApiError α → Exec α
  | .ok a => pure a
  | .error e => throw [.arg e]

/-- A call of the API whose error is thrown. -/
def apiOrThrow (c : ApiCall) : Exec c.Ok := do
  orThrow (← api c)

/-- Runs a query, whose failure is the failure of the program. -/
def query (q : Query) : Exec q.Ok := ExceptT.mk (Prog.perform (I := Calls) (.db q))

/-- The latest bid and ask of a pair. -/
def latestTick (exchange : Exchange) (pair : Pair) : Prog Calls (Option (Decimal × Decimal)) :=
  Prog.perform (I := Calls) (.latestBidAsk exchange pair)

/-- The wall clock. -/
def utcNow : Prog Calls DateTime := Prog.perform (I := Calls) .utcNow

/-- A fresh identifier. -/
def newUuid : Prog Calls Uuid := Prog.perform (I := Calls) .newUuid

/-- The passes of a poll before its deadline. -/
def pollPasses : Prog Calls Nat := Prog.perform (I := Calls) .pollPasses

/-! ## Quiet calls -/

/-- Calls that do not touch the database. -/
def Call.quiet : Call → Prop
  | .db _ => False
  | _ => True

/-- Calls that only look up an order, a fee, a price or the time. -/
def Call.reads : Call → Prop
  | .db _ | .api (.sendChildOrder _) | .api (.getPositions _) | .api (.cancelChildOrder _ _)
  | .api (.placeStopOrder _ _ _ _ _) | .api (.cancelStopOrder _ _) | .api (.stopOrderStatus _ _) => False
  | _ => True

theorem Call.quiet_of_reads (c : Call) (h : c.reads) : c.quiet := by
  cases c <;> trivial

variable {ok : Call → Prop}

theorem only_api {c : ApiCall} (h : ok (.api c)) : Only ok (api c) := Only.perform (I := Calls) h

theorem only_apiOrThrow {c : ApiCall} (h : ok (.api c)) : Only ok (apiOrThrow c).run := by
  refine OnlyE.bindLift (only_api h) fun r => ?_
  cases r <;> trivial

theorem quiet_api (c : ApiCall) : Only Call.quiet (api c) := only_api trivial

theorem quiet_apiOrThrow (c : ApiCall) : Only Call.quiet (apiOrThrow c).run := only_apiOrThrow trivial

theorem only_latestTick {exchange : Exchange} {pair : Pair} (h : ok (.latestBidAsk exchange pair)) :
    Only ok (latestTick exchange pair) := Only.perform (I := Calls) h

theorem reads_utcNow : Only Call.reads utcNow := Only.perform (I := Calls) trivial

theorem reads_newUuid : Only Call.reads newUuid := Only.perform (I := Calls) trivial

theorem reads_pollPasses : Only Call.reads pollPasses := Only.perform (I := Calls) trivial

theorem quiet_utcNow : Only Call.quiet utcNow := reads_utcNow.mono Call.quiet_of_reads

theorem quiet_newUuid : Only Call.quiet newUuid := reads_newUuid.mono Call.quiet_of_reads

/-! ## The rules of the calls -/

section

variable {P β : Type} {A : Protocol Calls P} {p : P} {R : P → β → Prop} {E : P → Error → Prop}

theorem meets_query {q : Query} {Q : P → q.Ok → Prop} (hq : A.allowed p (.db q))
    (ok : ∀ a, Q (A.next p (.db q) (.ok a)) a) (err : ∀ e, E (A.next p (.db q) (.error e)) e) :
    MeetsE A p (query q) Q E := by
  refine ⟨hq, fun r => ?_⟩
  cases r with
  | ok a => exact ok a
  | error e => exact err e

theorem meets_ask {c : ApiCall} {f : c.Ret → Prog Calls β} (hc : A.allowed p (.api c))
    (hf : ∀ r, Meets A (A.next p (.api c) r) (f r) R) : Meets A p (api c >>= f) R :=
  Meets.bind ⟨hc, hf⟩

theorem meets_api {c : ApiCall} {f : c.Ret → Exec β} (hc : A.allowed p (.api c))
    (hf : ∀ r, MeetsE A (A.next p (.api c) r) (f r) R E) : MeetsE A p ((liftM (api c) : Exec c.Ret) >>= f) R E :=
  MeetsE.bindLift ⟨hc, hf⟩

theorem meets_apiOrThrow {c : ApiCall} {Q : P → c.Ok → Prop} (hc : A.allowed p (.api c))
    (ok : ∀ a, Q (A.next p (.api c) (.ok a)) a) (err : ∀ e, E (A.next p (.api c) (.error e)) [.arg e]) :
    MeetsE A p (apiOrThrow c) Q E := by
  refine meets_api hc fun r => ?_
  cases r with
  | ok a => exact ok a
  | error e => exact err e

end

/-! ## The world -/

/-- How an exchange answers thread `i`, and how it moves by itself. -/
structure ExchangeModel (ε : Type) where
  respond : Nat → ε → (c : ApiCall) → c.Ret → ε → Prop
  move : ε → ε → Prop

/-- The database, the exchange and the time. -/
structure World (ε : Type) where
  db : Db
  exchange : ε
  now : DateTime

/-- What happens without a call of the program. -/
inductive Move where
  /-- Time passes. -/
  | tick (t : Int)
  | exchange
  /-- The leverage of an account is edited. -/
  | setLeverage (accountId : Uuid) (leverage : Decimal)

/-- A query that is answered has committed; one that failed has changed nothing. -/
def Query.answered (q : Query) (now : DateTime) (db : Db) : Except Error q.Ok → Db → Prop
  | .ok a, db' => q.tx.run now db = .ok (a, db')
  | .error _, db' => db' = db

/-- The leverage of an account is replaced. -/
def setLeverage (accountId : Uuid) (leverage : Decimal) (db : Db) : Db :=
  match db.accounts.find? accountId with
  | some a => { db with accounts := db.accounts.set { a with leverage } }
  | none => db

@[simp] theorem setLeverage_trades (accountId : Uuid) (leverage : Decimal) (db : Db) :
    (setLeverage accountId leverage db).trades = db.trades := by
  simp only [setLeverage]
  split <;> rfl

@[simp] theorem setLeverage_accountEvents (accountId : Uuid) (leverage : Decimal) (db : Db) :
    (setLeverage accountId leverage db).accountEvents = db.accountEvents := by
  simp only [setLeverage]
  split <;> rfl

/-- The world over a model of the exchange. -/
def worldSys (E : ExchangeModel ε) : Sys Calls (World ε) Move where
  respond i w c r w' := match c, r with
    | .api c, r => ∃ x, E.respond i w.exchange c r x ∧ w' = { w with exchange := x }
    | .db q, r => ∃ db, q.answered w.now w.db r db ∧ w' = { w with db }
    | _, _ => w' = w
  move w m w' := match m with
    | .tick t => 0 ≤ t ∧ w' = { w with now := w.now + t }
    | .exchange => ∃ x, E.move w.exchange x ∧ w' = { w with exchange := x }
    | .setLeverage accountId leverage => w' = { w with db := setLeverage accountId leverage w.db }

end AutoTrader
