import AutoTrader.App.ExecutorLoop
import AutoTrader.Db.Accounts
import AutoTrader.Executor.Close
import Mathlib.Data.List.DropRight

/-!
# The accounts API

`create`, `update` and `remove` are programs of several statements: they check, and then they write in one
statement. `AccountRequest.meets` says what every request does whatever its statements answer. It writes
nothing or once, and what it writes was checked (`accountProtocol`); it answers with success iff it wrote, and
after a statement whose answer was lost it makes no other and answers with an internal error.
-/

namespace AutoTrader

/-! ## Texts -/

/-- `FromStr` of the exchange. -/
def Exchange.parse (s : String) : Except Error Exchange :=
  if s = "oanda" then .ok .oanda
  else if s = "bitflyer_cfd" then .ok .bitflyerCfd
  else if s = "gmo_fx" then .ok .gmoFx
  else .error [.lit "unsupported exchange: ", .arg s]

theorem Exchange.parse_eq_ok {s : String} {e : Exchange} : Exchange.parse s = .ok e ↔ s = e.asStr := by
  constructor
  · intro h
    simp only [parse] at h
    split at h
    · rename_i hs
      cases h
      exact hs
    split at h
    · rename_i hs
      cases h
      exact hs
    split at h
    · rename_i hs
      cases h
      exact hs
    · cases h
  · rintro rfl
    cases e <;> rfl

/-- `trim().to_ascii_lowercase()`. -/
@[irreducible] def trimLower (s : String) : String := String.ofList ((trimChars s.toList).map Char.toLower)

/-- The blanks of the `btrim` that trims a currency. -/
def currencyBlank (c : Char) : Bool := c = ' ' || c = '\t' || c = '\n' || c = '\r'

/-- The currency as it is stored: trimmed and in upper case. -/
@[irreducible] def normalizeCurrency (currency : String) : String :=
  String.ofList (((currency.toList.dropWhile currencyBlank).rdropWhile currencyBlank).map Char.toUpper)

theorem val_toUpper (c : Char) :
    c.toUpper.val = if 'a'.val ≤ c.val ∧ c.val ≤ 'z'.val then c.val + 4294967264 else c.val := by
  split
  · rename_i hc
    have hup : c.toUpper = ⟨c.val + ('A'.val - 'a'.val), _⟩ := dif_pos hc
    rw [hup]
    rfl
  · rename_i hc
    exact congrArg Char.val (dif_neg hc)

theorem currencyBlank_toUpper (c : Char) : currencyBlank c.toUpper = currencyBlank c := by
  simp only [currencyBlank, Char.ext_iff, val_toUpper]
  grind

theorem toUpper_toUpper (c : Char) : c.toUpper.toUpper = c.toUpper := by
  by_cases hc : 'a'.val ≤ c.val ∧ c.val ≤ 'z'.val
  · have hnot : ¬('a'.val ≤ c.toUpper.val ∧ c.toUpper.val ≤ 'z'.val) := by
      rw [val_toUpper, if_pos hc]
      simp at hc ⊢
      grind
    exact dif_neg hnot
  · have hsame : c.toUpper = c := dif_neg hc
    rw [hsame, hsame]

theorem dropWhile_rdropWhile_dropWhile {α : Type} (p : α → Bool) (l : List α) :
    ((l.dropWhile p).rdropWhile p).dropWhile p = (l.dropWhile p).rdropWhile p := by
  refine List.dropWhile_eq_self_iff.mpr fun hl => ?_
  have hpre := List.rdropWhile_prefix p (l := l.dropWhile p)
  have hlen := lt_of_lt_of_le hl hpre.length_le
  rw [hpre.getElem hl]
  exact List.dropWhile_eq_self_iff.mp (List.dropWhile_idempotent p l) hlen

/-- A currency is normalized once and for all. -/
theorem normalizeCurrency_normalizeCurrency (currency : String) :
    normalizeCurrency (normalizeCurrency currency) = normalizeCurrency currency := by
  have hblank : currencyBlank ∘ Char.toUpper = currencyBlank := funext currencyBlank_toUpper
  have hupper : Char.toUpper ∘ Char.toUpper = Char.toUpper := funext toUpper_toUpper
  simp only [normalizeCurrency, String.toList_ofList, List.dropWhile_map, hblank, dropWhile_rdropWhile_dropWhile]
  simp only [List.rdropWhile, ← List.map_reverse, List.dropWhile_map, hblank, List.reverse_reverse]
  rw [List.dropWhile_idempotent, List.map_map, hupper]

/-- The largest leverage of the exchange. -/
def leverageCap : Exchange → Option Decimal
  | .bitflyerCfd => some 2
  | .gmoFx => some 25
  | .oanda => none

/-- The check that the leverage is at most the regulatory cap of the exchange. -/
def validateLeverageForExchange (exchange : Exchange) (leverage : Decimal) : Except Error Unit :=
  match leverageCap exchange with
  | some cap =>
    if cap < leverage then .error [.lit "invalid leverage: exceeds regulatory cap ", .arg (toString cap)] else .ok ()
  | none => .ok ()

/-- The leverage is at most the regulatory cap of the exchange, if it has one. -/
def withinCap (exchange : Exchange) (leverage : Decimal) : Prop := ∀ cap ∈ leverageCap exchange, leverage ≤ cap

instance (exchange : Exchange) (leverage : Decimal) : Decidable (withinCap exchange leverage) :=
  inferInstanceAs (Decidable (∀ cap ∈ leverageCap exchange, leverage ≤ cap))

theorem validateLeverageForExchange_ok {exchange : Exchange} {leverage : Decimal}
    (h : validateLeverageForExchange exchange leverage = .ok ()) : withinCap exchange leverage := by
  intro cap hcap
  simp only [validateLeverageForExchange, Option.mem_def.mp hcap] at h
  split at h
  · cases h
  · rename_i hle
    exact not_lt.mp hle

namespace Accounts

open Lib (Prog Protocol)
open Lib.Prog (MeetsE mapError result)
open Piece (lit arg)

/-- The check that a yen account starts with at least `minInitialBalanceJpy`. -/
def validateInitialBalance (currency : String) (initialBalance : Decimal) : Except Error Unit :=
  if normalizeCurrency currency = "JPY" ∧ initialBalance < minInitialBalanceJpy then
    .error [lit "invalid initial_balance: must be at least ", arg (toString minInitialBalanceJpy), lit " JPY"]
  else .ok ()

/-! ## Errors -/

/-- The HTTP status codes the handlers answer with. -/
inductive StatusCode where
  | badRequest
  | notFound
  | conflict
  | internalServerError
  deriving DecidableEq, Repr

/-- An error answer: its status and the text of its body. -/
structure ApiError where
  status : StatusCode
  message : Error
  deriving DecidableEq, Repr

/-- An error of the account functions of `db`: a text, or an error of the driver with its context.
-/
inductive AnyhowError where
  | text (e : Error)
  | sqlx (e : SqlxError) (context : Option Error)
  deriving DecidableEq, Repr

/-- The text that `{}` prints of an error: its outermost context. -/
def AnyhowError.display : AnyhowError → Error
  | .text e => e
  | .sqlx _ (some context) => context
  | .sqlx (.database _ _ s) none => [arg s]
  | .sqlx (.other s) none => [arg s]

/-- The answer to a strategy that is not in the catalog. -/
def strategyNotFound : ApiError :=
  ⟨.badRequest, [lit "invalid strategy: not found in catalog (see GET /api/strategies)"]⟩

/-- The answer to an identifier without an account. -/
def accountNotFound : ApiError := ⟨.notFound, [lit "invalid account: not found"]⟩

/-- The answer to a violated unique constraint. -/
def mapUniqueViolationToApiError (e : AnyhowError) : Constraint → ApiError
  | .oneLivePerExchange => ⟨.conflict, e.display⟩
  | _ => ⟨.conflict, [lit "invalid name: duplicate"]⟩

/-- The answer to a violated foreign key. -/
def mapForeignKeyViolationToApiError : Constraint → ApiError
  | .strategyFkey => strategyNotFound
  | _ => ⟨.conflict, [lit "failed to delete account: related trades exist"]⟩

/-- The answer to an error of the database, by its code and the constraint it names. -/
def mapDatabaseErrorToApiError (e : AnyhowError) (code : SqlState) (constraint : Constraint) : ApiError :=
  match code with
  | .uniqueViolation => mapUniqueViolationToApiError e constraint
  | .foreignKeyViolation => mapForeignKeyViolationToApiError constraint
  | .other => ⟨.internalServerError, [lit "database error"]⟩

/-- `ApiError::from`. -/
def ApiError.ofAnyhow (e : AnyhowError) : ApiError :=
  match e with
  | .sqlx (.database code constraint _) _ => mapDatabaseErrorToApiError e code constraint
  | _ => ⟨.internalServerError, [lit "internal error"]⟩

/-- The operation of a create, as its conflict message names it. -/
def createAccountOperation : String := "create account"

/-- The operation of an update, as its conflict message names it. -/
def reactivateAccountOperation : String := "reactivate account"

/-- The conflict message of a second active live account on an exchange. -/
def buildOneLivePerExchangeConflictMessage (operation exchange : String) : Error :=
  [lit "failed to ", lit operation, lit ": live account already exists for exchange \"", arg exchange,
    lit "\"; only 1 live account per exchange is supported"]

/-- The context that a violated constraint gives to the error of the driver. -/
def translateUniqueViolation (operation exchange : String) (e : SqlxError) : AnyhowError :=
  match e with
  | .database _ .oneLivePerExchange _ => .sqlx e (some (buildOneLivePerExchangeConflictMessage operation exchange))
  | .database _ .exchangeNormalized _ => .sqlx e (some [lit "invalid exchange: must match ^[a-z0-9_]+$"])
  | _ => .sqlx e none

/-! ## The functions of the database crate -/

/-- A program over the calls of the account API that can fail. -/
abbrev AccountProg (ε α : Type) := ExceptT ε (Prog AccountCalls) α

/-- A statement of the database crate. -/
def dbSql (q : AccountSql) : AccountProg AnyhowError q.Ok := mapError (fun e => .sqlx e none) (sql q)

/-- The body of a create request. -/
structure CreateTradingAccount where
  name : String
  exchange : String
  initialBalance : Decimal
  leverage : Decimal
  strategy : String
  accountType : String
  currency : String
  deriving DecidableEq, Repr

/-- Why an update of an account failed. -/
inductive UpdateAccountError where
  | openTrades (accountId : Uuid) (count : Nat)
  | other (e : AnyhowError)
  deriving DecidableEq, Repr

/-- A live account is refused when its exchange has an active one. -/
def rejectIfLiveAccountExistsForExchange (exchange : Exchange) : AccountProg AnyhowError Unit := do
  let existing ← dbSql (.findActiveLive exchange none)
  if existing.isSome then
    throw (.text (buildOneLivePerExchangeConflictMessage createAccountOperation exchange.asStr))

/-- The initial balance as it is stored: a JPY balance is rounded toward zero. -/
def storedBalance (currency : String) (initialBalance : Decimal) : Decimal :=
  if currency = "JPY" then Lib.truncate initialBalance else initialBalance

/-- The row that `create_account` inserts. -/
def CreateTradingAccount.newAccount (req : CreateTradingAccount) (exchange : Exchange) : NewAccount where
  name := req.name
  live := req.accountType = "live"
  exchange := exchange
  strategy := req.strategy
  initialBalance := storedBalance (normalizeCurrency req.currency) req.initialBalance
  leverage := req.leverage
  currency := normalizeCurrency req.currency

/-- The part of `create_account` after the check for another live account. -/
def insertValidated (req : CreateTradingAccount) (exchange : String) (exchangeEnum : Exchange) :
    AccountProg AnyhowError AccountRow := do
  mapError .text (result (validateInitialBalance (normalizeCurrency req.currency) req.initialBalance))
  mapError .text (result (validateLeverageForExchange exchangeEnum req.leverage))
  mapError (translateUniqueViolation createAccountOperation exchange)
    (sql (.insertAccount (req.newAccount exchangeEnum)))

/-- `db::create_account`: the checks and the insert. -/
def createAccount (req : CreateTradingAccount) : AccountProg AnyhowError AccountRow := do
  if req.accountType ≠ "paper" ∧ req.accountType ≠ "live" then
    throw (.text [lit "invalid account_type: must be 'paper' or 'live'"])
  let exchange := trimLower req.exchange
  if exchange.isEmpty ∨ ¬exchange.toList.all fun c => c.isLower || c.isDigit || c = '_' then
    throw (.text [lit "invalid exchange: must be non-empty and contain only [a-z0-9_]"])
  let exchangeEnum ← mapError .text (result (Exchange.parse exchange))
  if req.accountType = "live" then rejectIfLiveAccountExistsForExchange exchangeEnum
  insertValidated req exchange exchangeEnum

/-- Activating a live account is refused when another one is active on its exchange. -/
def rejectIfOtherLiveAccountActive (exchange : Exchange) (id : Uuid) : AccountProg UpdateAccountError Unit := do
  let existingLive ← mapError .other (dbSql (.findActiveLive exchange (some id)))
  if existingLive.isSome then
    throw (.other (.text (buildOneLivePerExchangeConflictMessage reactivateAccountOperation exchange.asStr)))

/-- The checks of `update_account` on the account as it is. -/
def checkUpdate (id : Uuid) (req : UpdateTradingAccount) (account : AccountRow) :
    AccountProg UpdateAccountError Unit := do
  if let some newLeverage := req.leverage then
    mapError (fun e => .other (.text e)) (result (validateLeverageForExchange account.exchange newLeverage))
  if req.active = some true ∧ account.live then rejectIfOtherLiveAccountActive account.exchange id

/-- The error of the update statement, with the exchange of the account where it was read. -/
def translateUpdateError (existing : Option AccountRow) (e : SqlxError) : UpdateAccountError :=
  match existing with
  | some account => .other (translateUniqueViolation reactivateAccountOperation account.exchange.asStr e)
  | none => .other (.sqlx e none)

/-- The part of `update_account` after the checks. -/
def writeUpdate (id : Uuid) (req : UpdateTradingAccount) (existing : Option AccountRow) :
    AccountProg UpdateAccountError (Option AccountRow) := do
  let row ← mapError (translateUpdateError existing) (sql (.updateAccount id req))
  if row.isSome ∨ existing.isNone ∨ req.active ≠ some false then return row
  let unsettled ← mapError .other (dbSql (.listOpenOrClosing id))
  throw (.openTrades id unsettled.length)

/-- `db::update_account`: the checks that the request needs, and the statement. -/
def updateAccount (id : Uuid) (req : UpdateTradingAccount) : AccountProg UpdateAccountError (Option AccountRow) := do
  if req.leverage.isSome ∨ req.active.isSome then
    let existing ← mapError .other (dbSql (.getAccount id))
    if let some account := existing then checkUpdate id req account
    writeUpdate id req existing
  else writeUpdate id req none

/-! ## The handlers -/

/-- A statement of a handler. -/
def apiSql (q : AccountSql) : AccountProg ApiError q.Ok := mapError .ofAnyhow (dbSql q)

/-- An error text as a bad request. -/
def orBadRequest {α : Type} (x : Except Error α) : AccountProg ApiError α :=
  mapError (fun msg => ⟨.badRequest, msg⟩) (result x)

/-- An account is refused on an exchange whose liquidation margin level is not configured. -/
def rejectAccountActivationWithUnresolvedLiquidationLevel (levels : Exchange → Option Decimal) (exchange : Exchange) :
    Except Error Unit :=
  match levels exchange with
  | none =>
    .error [lit "invalid option \"exchange_margin.", lit exchange.asStr,
      lit ("\": missing; add `liquidation_margin_level` and restart the service before creating " ++
        "accounts on this exchange")]
  | some y =>
    if y ≤ 0 then
      .error [lit "invalid option \"exchange_margin.", lit exchange.asStr,
        lit ".liquidation_margin_level\": must be > 0, got ", arg (toString y),
        lit "; fix the value in config and restart the service before creating accounts on this exchange"]
    else .ok ()

theorem rejectAccountActivation_ok {levels : Exchange → Option Decimal} {exchange : Exchange}
    (h : rejectAccountActivationWithUnresolvedLiquidationLevel levels exchange = .ok ()) :
    (liquidationLevel levels exchange).isSome := by
  simp only [rejectAccountActivationWithUnresolvedLiquidationLevel] at h
  simp only [liquidationLevel]
  cases hy : levels exchange with
  | none => simp [hy] at h
  | some y =>
    simp only [hy] at h
    split at h
    · cases h
    · rename_i hpos
      simp [not_le.mp hpos]

/-- The handler of a create request. -/
def create (levels : Exchange → Option Decimal) (req : CreateTradingAccount) : AccountProg ApiError AccountRow := do
  if req.accountType ≠ "paper" ∧ req.accountType ≠ "live" then
    throw ⟨.badRequest, [lit "invalid account_type: must be 'paper' or 'live'"]⟩
  let req := { req with currency := normalizeCurrency req.currency }
  orBadRequest (validateInitialBalance req.currency req.initialBalance)
  let exchangeNormalized := trimLower req.exchange
  let exchangeEnum ← orBadRequest (Exchange.parse exchangeNormalized)
  orBadRequest (validateLeverageForExchange exchangeEnum req.leverage)
  orBadRequest (rejectAccountActivationWithUnresolvedLiquidationLevel levels exchangeEnum)
  let found ← apiSql (.strategyExists req.strategy)
  if !found then throw strategyNotFound
  if req.accountType = "live" then
    let existing ← apiSql (.findActiveLive exchangeEnum none)
    if existing.isSome then
      throw ⟨.conflict, buildOneLivePerExchangeConflictMessage createAccountOperation exchangeNormalized⟩
  mapError .ofAnyhow (createAccount req)

/-- The conflict message of a deactivation while `count` trades are unsettled. -/
def buildUnsettledTradesConflictMessage (count : Nat) : Error :=
  [lit "failed to deactivate account: ", arg (toString count), lit " open/closing trade(s) exist; close them first"]

/-- An active account with open or closing trades is not deactivated. -/
def rejectDeactivationWhileTradesAreUnsettled (id : Uuid) : AccountProg ApiError Unit := do
  let some account ← apiSql (.getAccount id) | return
  if !account.active then return
  let unsettled ← apiSql (.listOpenOrClosing id)
  if !unsettled.isEmpty then throw ⟨.conflict, buildUnsettledTradesConflictMessage unsettled.length⟩

/-- An account is activated only where a new one could be created. -/
def rejectReactivationViolatingActivationGuards (levels : Exchange → Option Decimal) (id : Uuid) :
    AccountProg ApiError Unit := do
  let some account ← apiSql (.getAccount id) | return
  orBadRequest (rejectAccountActivationWithUnresolvedLiquidationLevel levels account.exchange)
  if account.live then
    let existing ← apiSql (.findActiveLive account.exchange (some id))
    if existing.isSome then
      throw ⟨.conflict, buildOneLivePerExchangeConflictMessage reactivateAccountOperation account.exchange.asStr⟩

/-- The answer to a failed update. -/
def updateAccountErrorToApiError : UpdateAccountError → ApiError
  | .openTrades _ count => ⟨.conflict, buildUnsettledTradesConflictMessage count⟩
  | .other err => .ofAnyhow err

/-- The check of `update` on the strategy. -/
def rejectUnknownStrategy (strategy : Option String) : AccountProg ApiError Unit := do
  let some name := strategy | return
  let found ← apiSql (.strategyExists name)
  if !found then throw strategyNotFound

/-- The check of `update` on the leverage. -/
def rejectLeverageOverCap (id : Uuid) (leverage : Option Decimal) : AccountProg ApiError Unit := do
  let some newLeverage := leverage | return
  let some account ← apiSql (.getAccount id) | return
  orBadRequest (validateLeverageForExchange account.exchange newLeverage)

/-- The checks of `update` on the active flag. -/
def rejectActive (levels : Exchange → Option Decimal) (id : Uuid) : Option Bool → AccountProg ApiError Unit
  | some false => rejectDeactivationWhileTradesAreUnsettled id
  | some true => rejectReactivationViolatingActivationGuards levels id
  | none => pure ()

/-- The handler of an update request. -/
def update (levels : Exchange → Option Decimal) (id : Uuid) (req : UpdateTradingAccount) :
    AccountProg ApiError AccountRow := do
  rejectUnknownStrategy req.strategy
  rejectLeverageOverCap id req.leverage
  rejectActive levels id req.active
  let some account ← mapError updateAccountErrorToApiError (updateAccount id req) | throw accountNotFound
  return account

/-- The handler of a delete request. -/
def remove (id : Uuid) : AccountProg ApiError Unit := do
  let rowsAffected ← apiSql (.deleteAccount id)
  if rowsAffected = 0 then throw accountNotFound

/-- The requests of the account API that write. -/
inductive AccountRequest where
  | create (req : CreateTradingAccount)
  | update (id : Uuid) (req : UpdateTradingAccount)
  | remove (id : Uuid)

/-- What a request that succeeded answers. -/
inductive Reply where
  | created (a : AccountRow)
  | updated (a : AccountRow)
  | removed
  deriving DecidableEq, Repr

/-- The program of a request. -/
def AccountRequest.prog (levels : Exchange → Option Decimal) :
    AccountRequest → Prog AccountCalls (Except ApiError Reply)
  | .create req => (Reply.created <$> Accounts.create levels req).run
  | .update id req => (Reply.updated <$> Accounts.update levels id req).run
  | .remove id => ((fun _ => Reply.removed) <$> Accounts.remove id).run

/-! ## The protocol of a request -/

/-- What a statement of a request has written. -/
inductive Write where
  | inserted (new : NewAccount) (a : AccountRow)
  | updated (id : Uuid) (req : UpdateTradingAccount) (a : AccountRow)
  | deleted (id : Uuid)
  deriving DecidableEq

/-- What an answered statement wrote. -/
def AccountSql.write : (q : AccountSql) → q.Ok → Option Write
  | .insertAccount new, a => some (.inserted new a)
  | .updateAccount id req, o => o.map (.updated id req)
  | .deleteAccount id, n => if n = 0 then none else some (.deleted id)
  | .strategyExists _, _ | .getAccount _, _ | .findActiveLive _ _, _ | .listOpenOrClosing _, _ => none

/-- What a statement has told of the exchange of an account; `none` where there is no account. -/
def AccountSql.fact : (q : AccountSql) → q.Ok → Option (Uuid × Option Exchange)
  | .getAccount id, o => some (id, o.map fun a => a.exchange)
  | .insertAccount _, _ | .updateAccount _ _, _ | .deleteAccount _, _ => none
  | .strategyExists _, _ | .findActiveLive _ _, _ | .listOpenOrClosing _, _ => none

/-- The statement may have been executed or not. -/
def SqlxError.isLost : SqlxError → Bool
  | .database _ _ _ => false
  | .other _ => true

/-- What a request has learned and written up to a point of its program. -/
structure Phase where
  learned : List (Uuid × Option Exchange)
  writes : List Write
  /-- The answer of a statement was lost. -/
  lost : Bool

/-- What the answer of one statement adds. -/
def Phase.answer (p : Phase) (q : AccountSql) : Except SqlxError q.Ok → Phase
  | .ok a => { p with learned := (q.fact a).toList ++ p.learned, writes := p.writes ++ (q.write a).toList }
  | .error e => { p with lost := p.lost || e.isLost }

/-- Every exchange that the account can have satisfies `P`, by what was learned. -/
def Learned (learned : List (Uuid × Option Exchange)) (id : Uuid) (P : Exchange → Prop) : Prop :=
  ∃ o, (id, o) ∈ learned ∧ ∀ e ∈ o, P e

/-- What is checked before a statement that writes. -/
def AccountSql.Checked (levels : Exchange → Option Decimal) (learned : List (Uuid × Option Exchange)) :
    AccountSql → Prop
  | .insertAccount new => withinCap new.exchange new.leverage ∧ (liquidationLevel levels new.exchange).isSome ∧
      (new.currency = "JPY" → Lib.truncate new.initialBalance = new.initialBalance)
  | .updateAccount id req =>
      (∀ leverage ∈ req.leverage, Learned learned id fun e => withinCap e leverage) ∧
        (req.active = some true → Learned learned id fun e => (liquidationLevel levels e).isSome)
  | _ => True

/-- Nothing is written and no answer was lost. -/
structure Phase.Idle (p : Phase) : Prop where
  writes : p.writes = []
  lost : p.lost = false

/-- One statement wrote, and no answer was lost. -/
structure Phase.Wrote (p : Phase) (write : Write) : Prop where
  writes : p.writes = [write]
  lost : p.lost = false

/-- A request makes no statement after its write or after a lost answer. -/
def accountProtocol (levels : Exchange → Option Decimal) : Protocol AccountCalls Phase where
  allowed p q := p.Idle ∧ q.Checked levels p.learned
  next p q r := p.answer q r

/-- A failed request has written nothing, and where it cannot know it does not blame the client. -/
def Refused (p : Phase) (e : ApiError) : Prop := p.writes = [] ∧ (p.lost = true → e.status = .internalServerError)

/-- The request goes on, and knows at least as much. -/
structure Phase.GoesOn (p p' : Phase) : Prop where
  idle : p'.Idle
  learned : p.learned ⊆ p'.learned

section

variable {levels : Exchange → Option Decimal} {p p' p'' : Phase} {α : Type}

theorem Phase.GoesOn.refl (hp : p.Idle) : p.GoesOn p := ⟨hp, List.Subset.refl _⟩

theorem Phase.GoesOn.trans (h : p.GoesOn p') (h' : p'.GoesOn p'') : p.GoesOn p'' :=
  ⟨h'.idle, List.Subset.trans h.learned h'.learned⟩

theorem Learned.mono {learned learned' : List (Uuid × Option Exchange)} {id : Uuid} {P R : Exchange → Prop}
    (h : Learned learned id P) (hsub : learned ⊆ learned') (hPR : ∀ e, P e → R e) : Learned learned' id R := by
  obtain ⟨o, ho, hP⟩ := h
  exact ⟨o, hsub ho, fun e he => hPR e (hP e he)⟩

theorem Phase.Idle.refused (hp : p.Idle) (e : ApiError) : Refused p e :=
  ⟨hp.writes, fun hlost => by rw [hp.lost] at hlost; cases hlost⟩

/-- A read that has told nothing but its answer, or an account. -/
theorem Phase.Idle.answer (hp : p.Idle) {q : AccountSql} {a : q.Ok} (hq : q.write a = none) :
    p.GoesOn (p.answer q (.ok a)) :=
  ⟨⟨by simp only [Phase.answer, hq, Option.toList_none, List.append_nil, hp.writes], hp.lost⟩,
    List.subset_append_right _ _⟩

/-- The first statement that writes. -/
theorem Phase.Idle.wrote (hp : p.Idle) {q : AccountSql} {a : q.Ok} {write : Write} (hq : q.write a = some write) :
    (p.answer q (.ok a)).Wrote write :=
  ⟨by simp only [Phase.answer, hq, Option.toList_some, hp.writes, List.nil_append], hp.lost⟩

theorem Phase.Idle.answer_error (hp : p.Idle) (q : AccountSql) (e : SqlxError) :
    p.answer q (.error e) = { p with lost := e.isLost } := by
  simp only [Phase.answer, hp.lost, Bool.false_or]

theorem sql_meets {ε : Type} {f : SqlxError → ε} {q : AccountSql} {Q : Phase → q.Ok → Prop} {E : Phase → ε → Prop}
    (hp : p.Idle) (hq : q.Checked levels p.learned) (hok : ∀ a, Q (p.answer q (.ok a)) a)
    (herr : ∀ e, E { p with lost := e.isLost } (f e)) :
    MeetsE (accountProtocol levels) p (mapError f (sql q)) Q E := by
  refine MeetsE.mapError ⟨⟨hp, hq⟩, fun r => ?_⟩
  cases r with
  | ok a => exact hok a
  | error e =>
    have herr := herr e
    rw [← hp.answer_error q e] at herr
    exact herr

/-- A lost answer is an internal error, with or without a context. -/
theorem refused_sqlx (hp : p.Idle) (e : SqlxError) (context : Option Error) :
    Refused { p with lost := e.isLost } (.ofAnyhow (.sqlx e context)) := by
  refine ⟨hp.writes, fun hlost => ?_⟩
  cases e with
  | database code constraint text => cases hlost
  | other text => rfl

theorem refused_translated (hp : p.Idle) (operation exchange : String) (e : SqlxError) :
    Refused { p with lost := e.isLost } (.ofAnyhow (translateUniqueViolation operation exchange e)) := by
  simp only [translateUniqueViolation]
  split
  · exact refused_sqlx hp _ _
  · exact refused_sqlx hp _ _
  · exact refused_sqlx hp _ _

theorem dbSql_meets {q : AccountSql} {Q : Phase → q.Ok → Prop} (hp : p.Idle) (hq : q.Checked levels p.learned)
    (hok : ∀ a, Q (p.answer q (.ok a)) a) :
    MeetsE (accountProtocol levels) p (dbSql q) Q fun p e => Refused p (.ofAnyhow e) :=
  sql_meets hp hq hok fun e => refused_sqlx hp e none

theorem apiSql_meets {q : AccountSql} {Q : Phase → q.Ok → Prop} (hp : p.Idle) (hq : q.Checked levels p.learned)
    (hok : ∀ a, Q (p.answer q (.ok a)) a) : MeetsE (accountProtocol levels) p (apiSql q) Q Refused :=
  MeetsE.mapError (dbSql_meets hp hq hok)

theorem orBadRequest_meets {x : Except Error α} {Q : Phase → α → Prop} (hp : p.Idle)
    (hok : ∀ a, x = .ok a → Q p a) : MeetsE (accountProtocol levels) p (orBadRequest x) Q Refused :=
  MeetsE.mapError (MeetsE.result hok fun _ _ => hp.refused _)

/-! ## What each function does -/

theorem rejectIfLiveAccountExists_meets (hp : p.Idle) (exchange : Exchange) :
    MeetsE (accountProtocol levels) p (rejectIfLiveAccountExistsForExchange exchange) (fun p' _ => p.GoesOn p')
      fun p e => Refused p (.ofAnyhow e) := by
  refine MeetsE.bind (dbSql_meets hp trivial fun existing => ?_)
  have hon : p.GoesOn (p.answer (.findActiveLive exchange none) (.ok existing)) := hp.answer rfl
  split
  · exact MeetsE.throw (hon.idle.refused _)
  · exact MeetsE.pure hon

/-- The row that a request to create an account asks for. -/
structure CreateTradingAccount.Gives (req : CreateTradingAccount) (new : NewAccount) : Prop where
  name : new.name = req.name
  accountType : req.accountType = if new.live then "live" else "paper"
  exchange : new.exchange.asStr = trimLower req.exchange
  strategy : new.strategy = req.strategy
  currency : new.currency = normalizeCurrency req.currency
  initialBalance : new.initialBalance = storedBalance new.currency req.initialBalance
  leverage : new.leverage = req.leverage

theorem truncate_storedBalance {currency : String} (h : currency = "JPY") (initialBalance : Decimal) :
    Lib.truncate (storedBalance currency initialBalance) = storedBalance currency initialBalance := by
  have hwhole : ∀ q : Rat, Lib.truncate (Lib.truncate q) = Lib.truncate q := by
    intro q
    by_cases hq : 0 ≤ q
    · rw [Lib.truncate_of_nonneg hq, Lib.truncate_intCast]
    · have hneg : Lib.truncate q = (⌈q⌉ : Int) := if_neg hq
      rw [hneg, Lib.truncate_intCast]
  rw [storedBalance, if_pos h, hwhole]

theorem insertValidated_meets (hp : p.Idle) {req : CreateTradingAccount} {exchange : Exchange}
    (htype : req.accountType = "paper" ∨ req.accountType = "live")
    (hexchange : Exchange.parse (trimLower req.exchange) = .ok exchange)
    (hlevel : (liquidationLevel levels exchange).isSome) :
    MeetsE (accountProtocol levels) p (insertValidated req (trimLower req.exchange) exchange)
      (fun p' a => ∃ new, req.Gives new ∧ p'.Wrote (.inserted new a)) fun p e => Refused p (.ofAnyhow e) := by
  refine MeetsE.bind (MeetsE.mapError (MeetsE.result (fun _ _ => ?_) fun _ _ => hp.refused _))
  refine MeetsE.bind (MeetsE.mapError (MeetsE.result (fun _ hleverage => ?_) fun _ _ => hp.refused _))
  have hchecked : AccountSql.Checked levels p.learned (.insertAccount (req.newAccount exchange)) :=
    ⟨validateLeverageForExchange_ok hleverage, hlevel, fun hjpy => truncate_storedBalance hjpy _⟩
  refine sql_meets hp hchecked (fun a => ?_) fun e => refused_translated hp _ _ e
  refine ⟨req.newAccount exchange, ⟨rfl, ?_, (Exchange.parse_eq_ok.mp hexchange).symm, rfl, rfl, rfl, rfl⟩,
    hp.wrote rfl⟩
  rcases htype with htype | htype <;> simp [CreateTradingAccount.newAccount, htype]

theorem createAccount_meets (hp : p.Idle) {req : CreateTradingAccount}
    (hlevel : ∀ e, Exchange.parse (trimLower req.exchange) = .ok e → (liquidationLevel levels e).isSome) :
    MeetsE (accountProtocol levels) p (createAccount req)
      (fun p' a => ∃ new, req.Gives new ∧ p'.Wrote (.inserted new a)) fun p e => Refused p (.ofAnyhow e) := by
  simp only [createAccount]
  split
  · exact MeetsE.throw (hp.refused _)
  rename_i htype
  have htype : req.accountType = "paper" ∨ req.accountType = "live" := by
    by_contra hne
    exact htype (not_or.mp hne)
  split
  · exact MeetsE.throw (hp.refused _)
  refine MeetsE.bind (MeetsE.mapError (MeetsE.result (fun exchange hexchange => ?_) fun _ _ => hp.refused _))
  have hinsert : ∀ p', p.GoesOn p' → MeetsE (accountProtocol levels) p'
      (insertValidated req (trimLower req.exchange) exchange)
      (fun p' a => ∃ new, req.Gives new ∧ p'.Wrote (.inserted new a)) fun p e => Refused p (.ofAnyhow e) :=
    fun p' hon => insertValidated_meets hon.idle htype hexchange (hlevel exchange hexchange)
  split
  · exact MeetsE.bind ((rejectIfLiveAccountExists_meets hp exchange).mono (fun p' _ hon => hinsert p' hon)
      fun _ _ he => he)
  · exact hinsert p (.refl hp)

theorem rejectIfOtherLiveAccountActive_meets (hp : p.Idle) (exchange : Exchange) (id : Uuid) :
    MeetsE (accountProtocol levels) p (rejectIfOtherLiveAccountActive exchange id) (fun p' _ => p.GoesOn p')
      fun p e => Refused p (updateAccountErrorToApiError e) := by
  refine MeetsE.bind (MeetsE.mapError (dbSql_meets hp trivial fun existing => ?_))
  have hon : p.GoesOn (p.answer (.findActiveLive exchange (some id)) (.ok existing)) := hp.answer rfl
  split
  · exact MeetsE.throw (hon.idle.refused _)
  · exact MeetsE.pure hon

theorem checkUpdate_meets (hp : p.Idle) (id : Uuid) (req : UpdateTradingAccount) (account : AccountRow) :
    MeetsE (accountProtocol levels) p (checkUpdate id req account)
      (fun p' _ => p.GoesOn p' ∧ ∀ leverage ∈ req.leverage, withinCap account.exchange leverage)
      fun p e => Refused p (updateAccountErrorToApiError e) := by
  have hactive : (∀ leverage ∈ req.leverage, withinCap account.exchange leverage) →
      MeetsE (accountProtocol levels) p
        (if req.active = some true ∧ account.live then rejectIfOtherLiveAccountActive account.exchange id else pure ())
        (fun p' _ => p.GoesOn p' ∧ ∀ leverage ∈ req.leverage, withinCap account.exchange leverage)
        fun p e => Refused p (updateAccountErrorToApiError e) := by
    intro hleverage
    split
    · exact (rejectIfOtherLiveAccountActive_meets hp account.exchange id).mono (fun _ _ hon => ⟨hon, hleverage⟩)
        fun _ _ he => he
    · exact MeetsE.pure ⟨.refl hp, hleverage⟩
  simp only [checkUpdate]
  split
  · rename_i newLeverage hnew
    refine MeetsE.bind (MeetsE.mapError (MeetsE.result (fun _ hcap => hactive fun leverage hl => ?_)
      fun _ _ => hp.refused _))
    rw [hnew] at hl
    obtain rfl := Option.some.inj hl
    exact validateLeverageForExchange_ok hcap
  · rename_i hnone
    exact hactive fun leverage hl => absurd hl (hnone leverage)

/-- The account is written, or there was none to write. -/
def Updated (id : Uuid) (req : UpdateTradingAccount) (p : Phase) : Option AccountRow → Prop
  | some a => p.Wrote (.updated id req a)
  | none => p.Idle

theorem writeUpdate_meets (hp : p.Idle) {id : Uuid} {req : UpdateTradingAccount}
    (hchecked : AccountSql.Checked levels p.learned (.updateAccount id req)) (existing : Option AccountRow) :
    MeetsE (accountProtocol levels) p (writeUpdate id req existing) (Updated id req)
      fun p e => Refused p (updateAccountErrorToApiError e) := by
  refine MeetsE.bind (sql_meets hp hchecked (fun row => ?_) fun e => ?_)
  · cases row with
    | some a => exact MeetsE.pure (hp.wrote rfl)
    | none =>
      have hon : p.GoesOn (p.answer (.updateAccount id req) (.ok none)) := hp.answer rfl
      split
      · exact MeetsE.pure hon.idle
      · exact MeetsE.bind (MeetsE.mapError (dbSql_meets hon.idle trivial fun _ =>
          MeetsE.throw ((hon.idle.answer rfl).idle.refused _)))
  · cases existing with
    | some account => exact refused_translated hp _ _ e
    | none => exact refused_sqlx hp e none

theorem updateAccount_meets (hp : p.Idle) {id : Uuid} {req : UpdateTradingAccount}
    (hactive : req.active = some true → Learned p.learned id fun e => (liquidationLevel levels e).isSome) :
    MeetsE (accountProtocol levels) p (updateAccount id req) (Updated id req)
      fun p e => Refused p (updateAccountErrorToApiError e) := by
  simp only [updateAccount]
  split
  · refine MeetsE.bind (MeetsE.mapError (dbSql_meets hp trivial fun existing => ?_))
    have hon : p.GoesOn (p.answer (.getAccount id) (.ok existing)) := hp.answer rfl
    have hfact : (id, existing.map fun a => a.exchange) ∈ (p.answer (.getAccount id) (.ok existing)).learned :=
      List.mem_cons_self
    have hactive' := fun ht => (hactive ht).mono hon.learned fun _ h => h
    cases existing with
    | none =>
      refine writeUpdate_meets hon.idle ⟨fun leverage _ => ⟨none, hfact, ?_⟩, hactive'⟩ none
      exact fun e he => absurd he (Option.not_mem_none e)
    | some account =>
      refine MeetsE.bind ((checkUpdate_meets hon.idle id req account).mono (fun p' _ h => ?_) fun _ _ he => he)
      obtain ⟨hon', hcap⟩ := h
      refine writeUpdate_meets hon'.idle ⟨fun leverage hl => ⟨some account.exchange, hon'.learned hfact, ?_⟩,
        fun ht => (hactive' ht).mono hon'.learned fun _ h => h⟩ (some account)
      intro e he
      obtain rfl := Option.some.inj he
      exact hcap leverage hl
  · rename_i hnone
    obtain ⟨hleverage, hactive'⟩ := not_or.mp hnone
    refine writeUpdate_meets hp ⟨fun leverage hl => ?_, hactive⟩ none
    rw [Option.mem_def.mp hl] at hleverage
    exact absurd rfl hleverage

theorem rejectUnknownStrategy_meets (hp : p.Idle) (strategy : Option String) :
    MeetsE (accountProtocol levels) p (rejectUnknownStrategy strategy) (fun p' _ => p.GoesOn p') Refused := by
  cases strategy with
  | none => exact MeetsE.pure (.refl hp)
  | some name =>
    refine MeetsE.bind (apiSql_meets hp trivial fun found => ?_)
    have hon : p.GoesOn (p.answer (.strategyExists name) (.ok found)) := hp.answer rfl
    split
    · exact MeetsE.throw (hon.idle.refused _)
    · exact MeetsE.pure hon

theorem rejectLeverageOverCap_meets (hp : p.Idle) (id : Uuid) (leverage : Option Decimal) :
    MeetsE (accountProtocol levels) p (rejectLeverageOverCap id leverage) (fun p' _ => p.GoesOn p') Refused := by
  cases leverage with
  | none => exact MeetsE.pure (.refl hp)
  | some newLeverage =>
    refine MeetsE.bind (apiSql_meets hp trivial fun existing => ?_)
    have hon : p.GoesOn (p.answer (.getAccount id) (.ok existing)) := hp.answer rfl
    cases existing with
    | none => exact MeetsE.pure hon
    | some account => exact orBadRequest_meets hon.idle fun _ _ => hon

theorem rejectDeactivation_meets (hp : p.Idle) (id : Uuid) :
    MeetsE (accountProtocol levels) p (rejectDeactivationWhileTradesAreUnsettled id) (fun p' _ => p.GoesOn p')
      Refused := by
  refine MeetsE.bind (apiSql_meets hp trivial fun existing => ?_)
  have hon : p.GoesOn (p.answer (.getAccount id) (.ok existing)) := hp.answer rfl
  cases existing with
  | none => exact MeetsE.pure hon
  | some account =>
    simp only
    split
    · exact MeetsE.pure hon
    · refine MeetsE.bind (apiSql_meets hon.idle trivial fun unsettled => ?_)
      have hon' := hon.trans (hon.idle.answer (q := .listOpenOrClosing id) (a := unsettled) rfl)
      split
      · exact MeetsE.throw (hon'.idle.refused _)
      · exact MeetsE.pure hon'

theorem rejectReactivation_meets (hp : p.Idle) (id : Uuid) :
    MeetsE (accountProtocol levels) p (rejectReactivationViolatingActivationGuards levels id)
      (fun p' _ => p.GoesOn p' ∧ Learned p'.learned id fun e => (liquidationLevel levels e).isSome) Refused := by
  refine MeetsE.bind (apiSql_meets hp trivial fun existing => ?_)
  have hon : p.GoesOn (p.answer (.getAccount id) (.ok existing)) := hp.answer rfl
  have hfact : (id, existing.map fun a => a.exchange) ∈ (p.answer (.getAccount id) (.ok existing)).learned :=
    List.mem_cons_self
  cases existing with
  | none => exact MeetsE.pure ⟨hon, none, hfact, fun e he => absurd he (Option.not_mem_none e)⟩
  | some account =>
    refine MeetsE.bind (orBadRequest_meets hon.idle fun _ hlevel => ?_)
    have hlearned : ∀ p', (p.answer (.getAccount id) (.ok (some account))).GoesOn p' →
        p.GoesOn p' ∧ Learned p'.learned id fun e => (liquidationLevel levels e).isSome := by
      refine fun p' hon' => ⟨hon.trans hon', some account.exchange, hon'.learned hfact, fun e he => ?_⟩
      obtain rfl := Option.some.inj he
      exact rejectAccountActivation_ok hlevel
    split
    · refine MeetsE.bind (apiSql_meets hon.idle trivial fun existing' => ?_)
      have hon' := hon.idle.answer (q := .findActiveLive account.exchange (some id)) (a := existing') rfl
      split
      · exact MeetsE.throw (hon'.idle.refused _)
      · exact MeetsE.pure (hlearned _ hon')
    · exact MeetsE.pure (hlearned _ (.refl hon.idle))

theorem rejectActive_meets (hp : p.Idle) (id : Uuid) (active : Option Bool) :
    MeetsE (accountProtocol levels) p (rejectActive levels id active)
      (fun p' _ => p.GoesOn p' ∧
        (active = some true → Learned p'.learned id fun e => (liquidationLevel levels e).isSome)) Refused := by
  match active with
  | none => exact MeetsE.pure ⟨.refl hp, fun h => by cases h⟩
  | some false =>
    exact (rejectDeactivation_meets hp id).mono (fun _ _ hon => ⟨hon, fun h => by cases h⟩) fun _ _ he => he
  | some true =>
    exact (rejectReactivation_meets hp id).mono (fun _ _ hon => ⟨hon.1, fun _ => hon.2⟩) fun _ _ he => he

/-! ## What each request does -/

theorem update_meets (hp : p.Idle) (id : Uuid) (req : UpdateTradingAccount) :
    MeetsE (accountProtocol levels) p (update levels id req) (fun p' a => p'.Wrote (.updated id req a))
      Refused := by
  simp only [update]
  refine MeetsE.bind ((rejectUnknownStrategy_meets hp req.strategy).mono (fun p₁ _ h₁ => ?_) fun _ _ he => he)
  refine MeetsE.bind ((rejectLeverageOverCap_meets h₁.idle id req.leverage).mono (fun p₂ _ h₂ => ?_) fun _ _ he => he)
  refine MeetsE.bind ((rejectActive_meets h₂.idle id req.active).mono (fun p₃ _ h₃ => ?_) fun _ _ he => he)
  refine MeetsE.bind (MeetsE.mapError ((updateAccount_meets h₃.1.idle h₃.2).mono (fun p₄ o ho => ?_) fun _ _ he => he))
  cases o with
  | some a => exact MeetsE.pure ho
  | none => exact MeetsE.throw (ho.refused _)

theorem create_meets (hp : p.Idle) (req : CreateTradingAccount) :
    MeetsE (accountProtocol levels) p (create levels req)
      (fun p' a => ∃ new, req.Gives new ∧ p'.Wrote (.inserted new a)) Refused := by
  simp only [create]
  split
  · exact MeetsE.throw (hp.refused _)
  refine MeetsE.bind (orBadRequest_meets hp fun _ _ => ?_)
  refine MeetsE.bind (orBadRequest_meets hp fun exchange hexchange => ?_)
  refine MeetsE.bind (orBadRequest_meets hp fun _ _ => ?_)
  refine MeetsE.bind (orBadRequest_meets hp fun _ hlevel => ?_)
  refine MeetsE.bind (apiSql_meets hp trivial fun found => ?_)
  have hon : p.GoesOn (p.answer (.strategyExists req.strategy) (.ok found)) := hp.answer rfl
  have hcreate : ∀ p' : Phase, p'.Idle → MeetsE (accountProtocol levels) p'
      (mapError .ofAnyhow (createAccount { req with currency := normalizeCurrency req.currency }))
      (fun p' a => ∃ new, req.Gives new ∧ p'.Wrote (.inserted new a)) Refused := by
    intro p' hp'
    refine MeetsE.mapError ((createAccount_meets hp' fun e he => ?_).mono (fun p'' a h => ?_) fun _ _ he => he)
    · obtain rfl := Except.ok.inj (hexchange.symm.trans he)
      exact rejectAccountActivation_ok hlevel
    · obtain ⟨new, hnew, hwrote⟩ := h
      have hcurrency : new.currency = normalizeCurrency req.currency :=
        hnew.currency.trans (normalizeCurrency_normalizeCurrency req.currency)
      exact ⟨new, { hnew with currency := hcurrency }, hwrote⟩
  split
  · exact MeetsE.throw (hon.idle.refused _)
  split
  · refine MeetsE.bind (apiSql_meets hon.idle trivial fun existing => ?_)
    have hon' := hon.idle.answer (q := .findActiveLive exchange none) (a := existing) rfl
    split
    · exact MeetsE.throw (hon'.idle.refused _)
    · exact hcreate _ hon'.idle
  · exact hcreate _ hon.idle

theorem remove_meets (hp : p.Idle) (id : Uuid) :
    MeetsE (accountProtocol levels) p (remove id) (fun p' _ => p'.Wrote (.deleted id)) Refused := by
  refine MeetsE.bind (apiSql_meets hp trivial fun rowsAffected => ?_)
  split
  · rename_i hnone
    exact MeetsE.throw ((hp.answer (q := .deleteAccount id) (a := rowsAffected) (if_pos hnone)).idle.refused _)
  · rename_i hsome
    exact MeetsE.pure (hp.wrote (if_neg hsome))

end

/-- What a finished request answers, and what it has written: on success one statement wrote, and there was none whose
answer was lost. -/
def AccountRequest.Answered (request : AccountRequest) (p : Phase) : Except ApiError Reply → Prop
  | .ok (.created a) => ∃ req new, request = .create req ∧ req.Gives new ∧ p.Wrote (.inserted new a)
  | .ok (.updated a) => ∃ id req, request = .update id req ∧ p.Wrote (.updated id req a)
  | .ok .removed => ∃ id, request = .remove id ∧ p.Wrote (.deleted id)
  | .error e => Refused p e

/-- Whatever its statements answer, a request keeps to the protocol, and it has written iff it succeeds. -/
theorem AccountRequest.meets (levels : Exchange → Option Decimal) (request : AccountRequest) :
    Lib.Prog.Meets (accountProtocol levels) ⟨[], [], false⟩ (request.prog levels) request.Answered := by
  have hstart : Phase.Idle ⟨[], [], false⟩ := ⟨rfl, rfl⟩
  cases request with
  | create req =>
    refine MeetsE.run (MeetsE.map ((create_meets hstart req).mono (fun p a h => ?_) fun _ _ he => he))
    obtain ⟨new, hnew, hwrote⟩ := h
    exact ⟨req, new, rfl, hnew, hwrote⟩
  | update id req =>
    exact MeetsE.run (MeetsE.map ((update_meets hstart id req).mono (fun p a h => ⟨id, req, rfl, h⟩) fun _ _ he => he))
  | remove id =>
    exact MeetsE.run (MeetsE.map ((remove_meets hstart id).mono (fun p _ h => ⟨id, rfl, h⟩) fun _ _ he => he))

end Accounts

end AutoTrader
