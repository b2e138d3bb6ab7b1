import AutoTrader.Db.Trades
import AutoTrader.Lib.Prog
import AutoTrader.Lib.Truncate

/-!
# The statements of the accounts API

`AccountsDb` is what the accounts API reads and writes, and `AccountSql.answers` says what a statement answers
and what it does: the partial unique index keeps at most one active live account for each exchange, the foreign
keys keep the strategy of an account and the account of a trade, and the `UPDATE` deactivates no account with
an unsettled trade. A statement that a constraint refuses answers with the database error.
-/

namespace AutoTrader.Accounts

open Lib (Prog Iface Table)

/-! ## Rows -/

/-- A row of `trading_accounts` with the columns the trading core does not read. -/
structure AccountRow extends TradingAccount where
  name : String
  currency : String
  deriving DecidableEq, Repr

/-- What an `INSERT` gives; the identifier is new and the row is active. -/
structure NewAccount where
  name : String
  live : Bool
  exchange : Exchange
  strategy : String
  initialBalance : Decimal
  leverage : Decimal
  currency : String
  deriving DecidableEq, Repr

/-- Fields of a trading account to change. -/
structure UpdateTradingAccount where
  name : Option String
  leverage : Option Decimal
  strategy : Option String
  active : Option Bool
  deriving DecidableEq, Repr

/-- The tables that the account API reads and writes. -/
structure AccountsDb where
  accounts : Table fun a : AccountRow => a.id
  trades : Table fun r : TradeRow => r.id
  /-- The names of the catalog. -/
  strategies : List String
  /-- The accounts that rows of other tables refer to. -/
  referenced : List Uuid
  /-- The identifiers that a row has had or that a request has asked for; a new one is none of them. -/
  named : List Uuid

/-- The row that an insert makes. -/
def NewAccount.row (new : NewAccount) (id : Uuid) (createdAt : DateTime) : AccountRow where
  id := id
  live := new.live
  exchange := new.exchange
  strategy := new.strategy
  initialBalance := new.initialBalance
  currentBalance := new.initialBalance
  leverage := new.leverage
  createdAt := createdAt
  active := true
  name := new.name
  currency := new.currency

/-- `SET name = COALESCE($2, name), …`. -/
def UpdateTradingAccount.apply (req : UpdateTradingAccount) (a : AccountRow) : AccountRow :=
  { a with
    name := req.name.getD a.name, leverage := req.leverage.getD a.leverage
    strategy := req.strategy.getD a.strategy, active := req.active.getD a.active }

/-- The columns that no statement changes. -/
def AccountRow.fixed (a : AccountRow) : Bool × Exchange × Decimal × String × DateTime :=
  (a.live, a.exchange, a.initialBalance, a.currency, a.createdAt)

/-- The account is in the index `trading_accounts_one_live_per_exchange`. -/
def AccountRow.indexed (a : AccountRow) : Bool := a.live && a.active

@[simp] theorem NewAccount.row_id (new : NewAccount) (id : Uuid) (createdAt : DateTime) :
    (new.row id createdAt).id = id := rfl

@[simp] theorem UpdateTradingAccount.apply_id (req : UpdateTradingAccount) (a : AccountRow) :
    (req.apply a).id = a.id := rfl

@[simp] theorem UpdateTradingAccount.apply_exchange (req : UpdateTradingAccount) (a : AccountRow) :
    (req.apply a).exchange = a.exchange := rfl

@[simp] theorem UpdateTradingAccount.apply_live (req : UpdateTradingAccount) (a : AccountRow) :
    (req.apply a).live = a.live := rfl

@[simp] theorem UpdateTradingAccount.apply_fixed (req : UpdateTradingAccount) (a : AccountRow) :
    (req.apply a).fixed = a.fixed := rfl

/-! ## Constraints -/

/-- Another row of the index has the exchange of `a`. -/
def AccountsDb.indexConflict (w : AccountsDb) (a : AccountRow) : Bool :=
  a.indexed && w.accounts.rows.any fun b => b.indexed && b.exchange = a.exchange && b.id ≠ a.id

/-- The least balance of a new yen account. -/
def minInitialBalanceJpy : Decimal := 10000

/-- The `CHECK` constraints of the table. -/
def AccountRow.checks (a : AccountRow) : Bool :=
  0 ≤ a.initialBalance && 1 ≤ a.leverage && (a.currency ≠ "JPY" || minInitialBalanceJpy ≤ a.initialBalance)

/-- The account has an open or a closing trade. -/
def AccountsDb.unsettled (w : AccountsDb) (id : Uuid) : Bool :=
  w.trades.rows.any fun r => r.accountId = id && r.status.unsettled

/-- A row of another table refers to the account. -/
def AccountsDb.restricted (w : AccountsDb) (id : Uuid) : Bool :=
  (w.trades.rows.any fun r => r.accountId = id) || w.referenced.contains id

/-- `ATOMIC_DEACTIVATION_GUARD_WHERE`. -/
def AccountsDb.deactivationGuard (w : AccountsDb) (a : AccountRow) (req : UpdateTradingAccount) : Bool :=
  req.active ≠ some false || !a.active || !w.unsettled a.id

theorem AccountRow.checks_iff {a : AccountRow} :
    a.checks ↔ 0 ≤ a.initialBalance ∧ 1 ≤ a.leverage ∧
      (a.currency = "JPY" → minInitialBalanceJpy ≤ a.initialBalance) := by
  simp [checks, and_assoc, imp_iff_not_or]

theorem AccountsDb.unsettled_eq_false {w : AccountsDb} {id : Uuid} :
    w.unsettled id = false ↔ ∀ r ∈ w.trades.rows, r.accountId = id → r.status = .closed := by
  simp [unsettled]

theorem AccountsDb.restricted_eq_false {w : AccountsDb} {id : Uuid} (h : w.restricted id = false) :
    ∀ r ∈ w.trades.rows, r.accountId ≠ id := by
  simp only [restricted, Bool.or_eq_false_iff, List.any_eq_false, decide_eq_true_eq] at h
  exact h.1

/-! ## Statements -/

/-- The codes of database errors that the API tells apart. -/
inductive SqlState where
  /-- `23505`. -/
  | uniqueViolation
  /-- `23503`. -/
  | foreignKeyViolation
  | other
  deriving DecidableEq, Repr

/-- The constraints that the API tells apart. -/
inductive Constraint where
  | oneLivePerExchange
  | strategyFkey
  | exchangeNormalized
  | other
  deriving DecidableEq, Repr

/-- An error of the database, or any other one of the driver. -/
inductive SqlxError where
  | database (code : SqlState) (constraint : Constraint) (text : String)
  | other (text : String)
  deriving DecidableEq, Repr

/-- The statements of the account API. -/
inductive AccountSql where
  | strategyExists (name : String)
  | getAccount (id : Uuid)
  | findActiveLive (exchange : Exchange) (excluding : Option Uuid)
  | insertAccount (new : NewAccount)
  | updateAccount (id : Uuid) (req : UpdateTradingAccount)
  | listOpenOrClosing (id : Uuid)
  | deleteAccount (id : Uuid)

/-- What each statement returns. -/
@[reducible] def AccountSql.Ok : AccountSql → Type
  | .strategyExists _ => Bool
  | .getAccount _ | .updateAccount _ _ => Option AccountRow
  | .findActiveLive _ _ => Option Uuid
  | .insertAccount _ => AccountRow
  | .listOpenOrClosing _ => List TradeRow
  | .deleteAccount _ => Nat

/-- The interface of the account API. -/
abbrev AccountCalls : Iface := ⟨AccountSql, fun q => Except SqlxError q.Ok⟩

/-- The row satisfies `exchange = $1 AND account_type = 'live' AND active AND id <> $2`. -/
def AccountRow.activeLive (a : AccountRow) (exchange : Exchange) (excluding : Option Uuid) : Bool :=
  a.exchange = exchange && a.indexed && excluding ≠ some a.id

/-- The row `a` is written, or a constraint refuses it. -/
def AccountsDb.writes (w : AccountsDb) (a : AccountRow) (accounts : Table fun a : AccountRow => a.id) {α : Type}
    (ok : α)
    (r : Except SqlxError α) (w' : AccountsDb) : Prop :=
  if a.checks = false then (∃ text, r = .error (.database .other .other text)) ∧ w' = w
  else if w.indexConflict a then (∃ text, r = .error (.database .uniqueViolation .oneLivePerExchange text)) ∧ w' = w
  else if a.strategy ∉ w.strategies then
    (∃ text, r = .error (.database .foreignKeyViolation .strategyFkey text)) ∧ w' = w
  else r = .ok ok ∧ w' = { w with accounts, named := a.id :: w.named }

/-- What a statement that is executed answers, and the database after it. -/
def AccountSql.answers (w : AccountsDb) : (q : AccountSql) → Except SqlxError q.Ok → AccountsDb → Prop
  | .strategyExists name, r, w' => r = .ok (decide (name ∈ w.strategies)) ∧ w' = w
  | .getAccount id, r, w' => r = .ok (w.accounts.find? id) ∧ w' = { w with named := id :: w.named }
  | .findActiveLive exchange excluding, r, w' =>
    -- `LIMIT 1` without an order: any row that is selected.
    (∃ o : Option Uuid, r = .ok o ∧
      match o with
      | some id => ∃ a ∈ w.accounts.rows, a.id = id ∧ a.activeLive exchange excluding
      | none => ∀ a ∈ w.accounts.rows, a.activeLive exchange excluding = false) ∧ w' = w
  | .insertAccount new, r, w' =>
    ∃ id createdAt accounts, id ∉ w.named ∧ w.accounts.insert (new.row id createdAt) = some accounts ∧
      w.writes (new.row id createdAt) accounts (new.row id createdAt) r w'
  | .updateAccount id req, r, w' =>
    match w.accounts.find? id with
    | some a =>
      if w.deactivationGuard a req then
        w.writes (req.apply a) (w.accounts.set (req.apply a)) (some (req.apply a)) r w'
      else r = .ok none ∧ w' = w
    | none => r = .ok none ∧ w' = w
  | .listOpenOrClosing id, r, w' =>
    r = .ok (w.trades.rows.filter fun r => r.accountId = id && r.status.unsettled) ∧ w' = w
  | .deleteAccount id, r, w' =>
    if (w.accounts.find? id).isNone then r = .ok 0 ∧ w' = w
    else if w.restricted id then (∃ text, r = .error (.database .foreignKeyViolation .other text)) ∧ w' = w
    else r = .ok 1 ∧ w' = { w with accounts := w.accounts.erase id }

/-- A written row satisfies the constraints. -/
theorem AccountsDb.writes_cases {w w' : AccountsDb} {a : AccountRow} {accounts : Table fun a : AccountRow => a.id}
    {α : Type}
    {ok : α} {r : Except SqlxError α} (h : w.writes a accounts ok r w') :
    (w' = w ∧ ∃ code constraint text, r = .error (.database code constraint text)) ∨
      (r = .ok ok ∧ w' = { w with accounts, named := a.id :: w.named } ∧ a.checks = true ∧
        w.indexConflict a = false ∧ a.strategy ∈ w.strategies) := by
  simp only [writes] at h
  split at h
  · obtain ⟨⟨text, hr⟩, hw⟩ := h
    exact .inl ⟨hw, _, _, text, hr⟩
  rename_i hchecks
  split at h
  · obtain ⟨⟨text, hr⟩, hw⟩ := h
    exact .inl ⟨hw, _, _, text, hr⟩
  rename_i hindex
  split at h
  · obtain ⟨⟨text, hr⟩, hw⟩ := h
    exact .inl ⟨hw, _, _, text, hr⟩
  rename_i hstrategy
  exact .inr ⟨h.1, h.2, Bool.of_not_eq_false hchecks, Bool.eq_false_of_not_eq_true hindex, not_not.mp hstrategy⟩

/-- One statement. -/
def sql (q : AccountSql) : ExceptT SqlxError (Prog AccountCalls) q.Ok :=
  ExceptT.mk (Prog.perform (I := AccountCalls) q)

end AutoTrader.Accounts
