import AutoTrader.Core.Error
import AutoTrader.Core.Margin
import AutoTrader.Lib.Table

/-!
# The database

The tables the trading core reads and writes, and `Tx`, what a statement or a transaction does to
them: it sees the time of its `NOW()`, and it commits a new database or fails and leaves the old one.
A statement that addresses a row by its primary key is `updateTrade` or `updateAccount`; `ok_bind`
and the lemmas on these two are what the proofs about the queries rest on.
-/

namespace AutoTrader

open Lib (Table)

/-- A row of `trades`. -/
structure TradeRow extends Trade where
  closingStartedAt : Option DateTime
  deriving DecidableEq, Repr

/-- A row of `trading_accounts`. -/
structure TradingAccount where
  id : Uuid
  live : Bool
  exchange : Exchange
  strategy : String
  initialBalance : Decimal
  currentBalance : Decimal
  leverage : Decimal
  createdAt : DateTime
  active : Bool
  deriving DecidableEq, Repr

/-- The kinds of account events. -/
inductive EventType where
  | marginLock
  | marginRelease
  | tradeClose
  | overnightFee
  | sfdFee
  | swapFee
  deriving DecidableEq, Repr

/-- A row of `account_events`. -/
structure AccountEvent where
  accountId : Uuid
  tradeId : Uuid
  eventType : EventType
  amount : Decimal
  balanceAfter : Decimal
  occurredAt : DateTime
  deriving DecidableEq, Repr

/-- The kinds of notifications. -/
inductive NotificationKind where
  | tradeOpened
  | tradeClosed
  deriving DecidableEq, Repr

/-- A row of `notifications`. -/
structure Notification where
  kind : NotificationKind
  tradeId : Uuid
  accountId : Uuid
  strategyName : String
  pair : Pair
  direction : Direction
  price : Decimal
  pnlAmount : Option Decimal
  exitReason : Option ExitReason
  deriving DecidableEq, Repr

/-- The tables that the trading code reads and writes. -/
structure Db where
  trades : Table fun r : TradeRow => r.id
  accounts : Table TradingAccount.id
  /-- Newest first. -/
  accountEvents : List AccountEvent
  notifications : List Notification

theorem Db.trade_id {db : Db} {id : Uuid} {r : TradeRow} (h : db.trades.find? id = some r) : r.id = id :=
  Lib.Table.find?_some_key (t := db.trades) h

theorem Db.account_id {db : Db} {id : Uuid} {a : TradingAccount} (h : db.accounts.find? id = some a) : a.id = id :=
  Lib.Table.find?_some_key (t := db.accounts) h

/-- A statement or a transaction that commits or fails. -/
abbrev Tx := ReaderT DateTime (StateT Db (Except Error))

namespace Tx

variable {α β : Type}

/-- What `x` does at time `now`. -/
def run (x : Tx α) (now : DateTime) (db : Db) : Except Error (α × Db) := x now db

/-- A committed sequence of two is one committed after the other. -/
theorem ok_bind {x : Tx α} {f : α → Tx β} {now : DateTime} {db db' : Db} {b : β} :
    (x >>= f).run now db = .ok (b, db') ↔
      ∃ a db₁, x.run now db = .ok (a, db₁) ∧ (f a).run now db₁ = .ok (b, db') := by
  change (x now db >>= fun r => f r.1 now r.2) = _ ↔ _
  simp only [run]
  cases x now db with
  | error e => simp [bind, Except.bind]
  | ok r =>
    obtain ⟨a, d⟩ := r
    simp [bind, Except.bind]

@[simp] theorem run_pure {a b : α} {now : DateTime} {db db' : Db} :
    (pure a : Tx α).run now db = .ok (b, db') ↔ a = b ∧ db = db' := by
  show Except.ok (a, db) = .ok (b, db') ↔ _
  simp

@[simp] theorem run_map {x : Tx α} {f : α → β} {now : DateTime} {db db' : Db} {b : β} :
    (f <$> x).run now db = .ok (b, db') ↔ ∃ a, x.run now db = .ok (a, db') ∧ f a = b := by
  rw [← bind_pure_comp, ok_bind]
  simp only [run_pure]
  exact ⟨fun ⟨a, _, h, e, e'⟩ => ⟨a, e' ▸ h, e⟩, fun ⟨a, h, e⟩ => ⟨a, _, h, e, rfl⟩⟩

@[simp] theorem run_throw {e : Error} {now : DateTime} {db : Db} {r : α × Db} :
    (throw e : Tx α).run now db = .ok r ↔ False := by
  simp [run, throw, throwThe, MonadExceptOf.throw, liftM, monadLift, MonadLift.monadLift,
    StateT.lift, bind, Except.bind]

@[simp] theorem run_read {now t : DateTime} {db db' : Db} :
    (read : Tx DateTime).run now db = .ok (t, db') ↔ now = t ∧ db = db' := by
  show Except.ok (now, db) = .ok (t, db') ↔ _
  simp

@[simp] theorem run_get {now : DateTime} {db d db' : Db} :
    (get : Tx Db).run now db = .ok (d, db') ↔ db = d ∧ db = db' := by
  simp [run, get, getThe, MonadStateOf.get, liftM, monadLift, MonadLift.monadLift, StateT.get, pure, Except.pure]

@[simp] theorem run_set {now : DateTime} {db d db' : Db} {u : PUnit} :
    (set d : Tx PUnit).run now db = .ok (u, db') ↔ d = db' := by
  show Except.ok (⟨⟩, d) = .ok (u, db') ↔ _
  simp

@[simp] theorem run_modify {now : DateTime} {db db' : Db} {f : Db → Db} {u : PUnit} :
    (modify f : Tx PUnit).run now db = .ok (u, db') ↔ f db = db' := by
  simp [run, modify, modifyGet, MonadStateOf.modifyGet, monadLift, MonadLift.monadLift,
    StateT.modifyGet, pure, Except.pure]

end Tx

/-! ## Statements on one row -/

/-- `UPDATE trades SET f WHERE id = id AND p`: the row as it was before, if there was one. -/
def updateTrade (id : Uuid) (p : TradeRow → Bool) (f : TradeRow → TradeRow) : Tx (Option TradeRow) := do
  let db ← get
  let some r := db.trades.find? id | return none
  if !p r then return none
  set { db with trades := db.trades.set (f r) }
  return some r

/-- `UPDATE trading_accounts SET f WHERE id = id`: the row as it is after, if there was one. -/
def updateAccount (id : Uuid) (f : TradingAccount → TradingAccount) : Tx (Option TradingAccount) := do
  let db ← get
  let some a := db.accounts.find? id | return none
  set { db with accounts := db.accounts.set (f a) }
  return some (f a)

/-- An account event is inserted. -/
def insertAccountEvent (e : AccountEvent) : Tx Unit :=
  modify fun db => { db with accountEvents := e :: db.accountEvents }

/-- A notification is inserted. -/
def insertNotification (n : Notification) : Tx Unit :=
  modify fun db => { db with notifications := n :: db.notifications }

section

variable {now : DateTime} {db db' : Db} {id : Uuid}

theorem updateTrade_ok {p : TradeRow → Bool} {f : TradeRow → TradeRow} {o : Option TradeRow}
    (h : (updateTrade id p f).run now db = .ok (o, db')) :
    (∃ r, o = some r ∧ db.trades.find? id = some r ∧ p r ∧ db' = { db with trades := db.trades.set (f r) }) ∨
      (o = none ∧ (∀ r, db.trades.find? id = some r → p r = false) ∧ db' = db) := by
  simp only [updateTrade, Tx.ok_bind, Tx.run_get] at h
  obtain ⟨_, _, ⟨rfl, rfl⟩, h⟩ := h
  cases hr : db.trades.find? id with
  | none =>
    simp only [hr, Tx.run_pure] at h
    exact .inr ⟨h.1.symm, fun _ hr => (by cases hr), h.2.symm⟩
  | some r =>
    cases hp : p r with
    | false =>
      simp only [hr, hp, Bool.not_false, ↓reduceIte, Tx.run_pure] at h
      exact .inr ⟨h.1.symm, fun _ e => Option.some.inj e ▸ hp, h.2.symm⟩
    | true =>
      simp only [hr, hp, Bool.not_true, Bool.false_eq_true, ↓reduceIte, Tx.ok_bind, Tx.run_set, Tx.run_pure] at h
      obtain ⟨_, _, rfl, rfl, rfl⟩ := h
      exact .inl ⟨r, rfl, rfl, hp, rfl⟩

theorem updateAccount_ok {f : TradingAccount → TradingAccount} {o : Option TradingAccount}
    (h : (updateAccount id f).run now db = .ok (o, db')) :
    (∃ a, o = some (f a) ∧ db.accounts.find? id = some a ∧ db' = { db with accounts := db.accounts.set (f a) }) ∨
      (o = none ∧ db.accounts.find? id = none ∧ db' = db) := by
  simp only [updateAccount, Tx.ok_bind, Tx.run_get] at h
  obtain ⟨_, _, ⟨rfl, rfl⟩, h⟩ := h
  cases ha : db.accounts.find? id with
  | none =>
    simp only [ha, Tx.run_pure] at h
    exact .inr ⟨h.1.symm, rfl, h.2.symm⟩
  | some a =>
    simp only [ha, Tx.ok_bind, Tx.run_set, Tx.run_pure] at h
    obtain ⟨_, _, rfl, rfl, rfl⟩ := h
    exact .inl ⟨a, rfl, rfl, rfl⟩

theorem updateTrade_run {p : TradeRow → Bool} {f : TradeRow → TradeRow} {r : TradeRow}
    (hr : db.trades.find? id = some r) (hp : p r = true) :
    (updateTrade id p f).run now db = .ok (some r, { db with trades := db.trades.set (f r) }) := by
  simp only [updateTrade, Tx.ok_bind, Tx.run_get]
  refine ⟨db, db, ⟨rfl, rfl⟩, ?_⟩
  simp only [hr, hp, Bool.not_true, Bool.false_eq_true, ↓reduceIte, Tx.ok_bind, Tx.run_set, Tx.run_pure]
  exact ⟨(), _, rfl, trivial, rfl⟩

theorem updateAccount_run {f : TradingAccount → TradingAccount} {a : TradingAccount}
    (ha : db.accounts.find? id = some a) :
    (updateAccount id f).run now db = .ok (some (f a), { db with accounts := db.accounts.set (f a) }) := by
  simp only [updateAccount, Tx.ok_bind, Tx.run_get]
  refine ⟨db, db, ⟨rfl, rfl⟩, ?_⟩
  simp only [ha, Tx.ok_bind, Tx.run_set, Tx.run_pure]
  exact ⟨(), _, rfl, trivial, rfl⟩

@[simp] theorem insertAccountEvent_ok {e : AccountEvent} {u : Unit} :
    (insertAccountEvent e).run now db = .ok (u, db') ↔ { db with accountEvents := e :: db.accountEvents } = db' :=
  Tx.run_modify

@[simp] theorem insertNotification_ok {n : Notification} {u : Unit} :
    (insertNotification n).run now db = .ok (u, db') ↔ { db with notifications := n :: db.notifications } = db' :=
  Tx.run_modify

end

end AutoTrader
