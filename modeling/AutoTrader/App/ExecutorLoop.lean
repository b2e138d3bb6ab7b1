import AutoTrader.Executor.Actor

/-!
# The executor loop

The loop takes one signal at a time: every active account of the strategy is dispatched to, and an account
that passes the gates opens a trade, unless it has an open one of the strategy and the pair already
(`accountHasOpenPosition`). The protocol `dispatching` keeps what that gate has seen: a trade is persisted
only for the signal at hand, on the account the gate was asked about, and only if the gate saw no open
trade of the strategy and the pair (`executorLoop_dispatching`).
-/

namespace AutoTrader

open Lib (Prog Protocol)
open Lib.Prog (Meets MeetsE Only Meets.bind)

/-! ## Gates -/

/-- What the loop reads of an exchange API without calling it. -/
structure ExchangeApi where
  requiresClosePositionId : Bool

/-- The API of a dry run on an exchange that has none. -/
def nullExchangeApi : ExchangeApi := ⟨false⟩

/-- What the loop is given: the exchanges, the sizer and the live switches. -/
structure ExecutorLoopContext where
  exchangeApis : Exchange → Option ExchangeApi
  exchangePairs : Exchange → List Pair
  positionSizer : PositionSizer
  exchangeLiquidationLevels : Exchange → Option Decimal
  liveForcesDryRun : Bool
  liveEnabled : Bool
  priceFreshnessSecs : Nat

/-- Why the freshness gate refuses a signal. -/
inductive RejectReason where
  | priceTickStale (ageSecs : Nat)
  deriving DecidableEq, Repr

/-- What a gate says. -/
inductive GateDecision where
  | pass
  | reject (reason : RejectReason)
  deriving DecidableEq, Repr

/-- A tick older than `priceFreshnessSecs` is stale. -/
def evalPriceFreshness (priceFreshnessSecs ageSecs : Nat) : GateDecision :=
  if priceFreshnessSecs < ageSecs then .reject (.priceTickStale ageSecs) else .pass

/-- `FX_NEW_EXCHANGE`. -/
def fxNewExchange : Exchange := .gmoFx

/-- The strategy is a version of `fx_new`. -/
def isFxNewStrategy (strategyName : String) : Bool := "fx_new".toList.isPrefixOf strategyName.toList

/-- `fx_new` only trades accounts of its exchange. -/
def fxNewDispatchAllowed (strategy : String) (accountExchange : Exchange) : Bool :=
  !isFxNewStrategy strategy || accountExchange == fxNewExchange

/-- An account trades dry when it is a paper account or everything live is forced dry. -/
def effectiveDryRun (live liveForcesDryRun : Bool) : Bool := !live || liveForcesDryRun

/-- The configured liquidation margin level, where it is positive. -/
def liquidationLevel (levels : Exchange → Option Decimal) (exchange : Exchange) : Option Decimal :=
  match levels exchange with
  | some y => if 0 < y then some y else none
  | none => none

/-- A live order while live trading is off. -/
def liveOrderBlocked (pac : TradingAccount) (liveEnabled : Bool) : Bool := pac.live && !liveEnabled

namespace ExecutorLoopContext

variable (ctx : ExecutorLoopContext) (pac : TradingAccount)

/-- The gates that need no database: the exchange to trade on, if they pass. -/
def checkStaticAccountGates (signal : Signal) : Option Exchange :=
  let exchange := pac.exchange
  if !fxNewDispatchAllowed signal.strategyName exchange then none
  else if !(ctx.exchangePairs exchange).contains signal.pair then none
  else if liveOrderBlocked pac ctx.liveEnabled then none
  else some exchange

/-- The API of an exchange; a dry run does without one. -/
def resolveExchangeApi (exchange : Exchange) (dryRun : Bool) : Option ExchangeApi :=
  match ctx.exchangeApis exchange with
  | some a => some a
  | none => if !dryRun then none else some nullExchangeApi

/-- A pair without a tick counts as one whose tick is as old as can be. -/
def checkPriceFreshness (exchange : Exchange) (signal : Signal) : Prog Calls Bool := do
  let age ← Prog.perform (I := Calls) (.lastTickAge exchange signal.pair)
  let lastTickAge : Nat := age.getD (2 ^ 64 - 1)
  match evalPriceFreshness ctx.priceFreshnessSecs lastTickAge with
  | .pass => return true
  | .reject _ => return false

/-- The trader of an account, where its exchange has a liquidation level. -/
def buildTrader (exchange : Exchange) (api : ExchangeApi) (dryRun : Bool) : Option Trader := do
  let liquidationMarginLevel ← liquidationLevel ctx.exchangeLiquidationLevels exchange
  return {
    exchange, accountId := pac.id, requiresClosePositionId := api.requiresClosePositionId
    positionSizer := ctx.positionSizer, liquidationMarginLevel, dryRun }

end ExecutorLoopContext

/-- The account is still there and active. -/
def accountStillTradable (account : Option TradingAccount) : Bool := account.any TradingAccount.active

/-- The account is read again before the open. -/
def reconfirmAccountActive (pac : TradingAccount) : Exec Bool := do
  let accountNow ← query (.getAccount pac.id)
  return accountStillTradable accountNow

/-! ## Dispatch -/

/-- Whether a trade is one of the strategy and the pair of a signal. -/
def Trade.isOf (trade : Trade) (signal : Signal) : Bool :=
  trade.strategyName = signal.strategyName && trade.pair = signal.pair

/-- A read that failed counts as one that found no open position. -/
def accountHasOpenPosition (trader : Trader) (signal : Signal) : Prog Calls Bool := do
  let positions ← trader.openPositions.run
  let positions : List Position := match positions with
    | .ok positions => positions
    | .error _ => []
  return positions.any fun p => p.trade.isOf signal

/-- An open that fails is only logged. -/
def executeAndRecord (signal : Signal) (trader : Trader) : Prog Calls Unit := do
  if ← accountHasOpenPosition trader signal then return ()
  let _ ← (trader.execute signal).run
  return ()

namespace ExecutorLoopContext

variable (ctx : ExecutorLoopContext)

/-- Whether the signal got past the gates of the account. -/
def dispatchToAccount (pac : TradingAccount) (signal : Signal) : Prog Calls Bool := do
  let some exchange := ctx.checkStaticAccountGates pac signal | return false
  let dryRun := effectiveDryRun pac.live ctx.liveForcesDryRun
  let some api := ctx.resolveExchangeApi exchange dryRun | return false
  if !(← ctx.checkPriceFreshness exchange signal) then return false
  let some trader := ctx.buildTrader pac exchange api dryRun | return false
  match ← (reconfirmAccountActive pac).run with
  | .ok true =>
    executeAndRecord signal trader
    return true
  | .ok false | .error _ => return false

/-- Whether an account has the strategy of the signal, and whether one got past the gates. -/
def dispatchToMatchingAccounts (signal : Signal) : List TradingAccount → Prog Calls (Bool × Bool)
  | [] => return (false, false)
  | pac :: accounts => do
    if pac.strategy ≠ signal.strategyName then dispatchToMatchingAccounts signal accounts
    else
      let dispatched ← ctx.dispatchToAccount pac signal
      let (_, others) ← dispatchToMatchingAccounts signal accounts
      return (true, dispatched || others)

/-- A signal is skipped when the accounts cannot be listed. -/
def processSignal (signal : Signal) : Prog Calls Unit := do
  match ← (query .listActive).run with
  | .ok accounts =>
    let _ ← ctx.dispatchToMatchingAccounts signal accounts
    return ()
  | .error _ => return ()

/-- The loop over the signals it receives. -/
def run : List Signal → Prog Calls Unit
  | [] => return ()
  | signal :: signals => do
    ctx.processSignal signal
    run signals

end ExecutorLoopContext

/-! ## What the gate has seen -/

/-- Where the loop is among the signals it is given. -/
structure DispatchPhase where
  /-- The signals to come. -/
  pending : List Signal
  current : Option Signal
  /-- The account the gate was asked about, and the open trades it saw. -/
  seen : Option (Uuid × List Trade)

/-- The signals to come, and nothing done. -/
def DispatchPhase.start (signals : List Signal) : DispatchPhase := ⟨signals, none, none⟩

/-- The gate's answer: a read that fails counts as no open trade. -/
def DispatchPhase.saw (p : DispatchPhase) (accountId : Uuid) : Except Error (List Trade) → DispatchPhase
  | .ok trades => { p with seen := some (accountId, trades) }
  | .error _ => { p with seen := some (accountId, []) }

/-- The trade may be opened: it is one of the signal at hand, and the gate saw no other. -/
structure DispatchPhase.Clears (p : DispatchPhase) (accountId : Uuid) (trade : Trade) : Prop where
  account : trade.accountId = accountId
  status : trade.status = .open
  signal : ∃ signal, p.current = some signal ∧ trade.isOf signal
  seen : ∃ trades, p.seen = some (accountId, trades) ∧
    ∀ signal, p.current = some signal → ∀ t ∈ trades, t.isOf signal = false

/-- The calls of the loop, each with what it may be made for. -/
def dispatching : Protocol Calls DispatchPhase where
  allowed p c := match c with
    | .db (.persistOpenTrade accountId trade _) => p.Clears accountId trade
    | .db .listActive | .db (.getAccount _) | .db (.getOpenTradesByAccount _) => True
    | .db _ => False
    | _ => True
  next p c r := match c, r with
    | .db .listActive, _ => ⟨p.pending.tail, p.pending.head?, none⟩
    | .db (.getOpenTradesByAccount accountId), r => p.saw accountId r
    | .db (.persistOpenTrade _ _ _), _ => { p with seen := none }
    | _, _ => p

/-- Only the signals to come and the signal at hand matter to what follows an account. -/
def DispatchPhase.SameSignals (p q : DispatchPhase) : Prop := q.pending = p.pending ∧ q.current = p.current

theorem DispatchPhase.saw_sameSignals (p : DispatchPhase) (accountId : Uuid) (r : Except Error (List Trade)) :
    p.SameSignals (p.saw accountId r) := by
  cases r <;> exact ⟨rfl, rfl⟩

/-- An open on the account the gate was asked about, when the gate saw no trade of the signal. -/
theorem execute_dispatching {t : Trader} {signal : Signal} {p : DispatchPhase} {trades : List Trade}
    (hcurrent : p.current = some signal) (hseen : p.seen = some (t.accountId, trades))
    (hnone : ∀ u ∈ trades, u.isOf signal = false) :
    Meets dispatching p (t.execute signal).run fun q _ => p.SameSignals q := by
  let R : Actor × Stage → DispatchPhase → Prop := fun s q =>
    s.1 = .execute t signal ∧ (s.2 = .idle → q = p) ∧ p.SameSignals q
  have hsim : ∀ s q c, R s q → settling.allowed s c →
      dispatching.allowed q c ∧ ∀ r, R (settling.next s c r) (dispatching.next q c r) := by
    rintro ⟨a, s⟩ q c ⟨rfl, hidle, hsame⟩ hc
    cases c with
    | db query =>
      have hc : (Actor.execute t signal).MayAsk s query := hc
      cases hc with
      | account =>
        obtain rfl := hidle rfl
        exact ⟨trivial, fun r => ⟨rfl, fun _ => rfl, hsame⟩⟩
      | @openTrade _ _ trade haccount hstrategy hpair hopen _ =>
        obtain rfl := hidle rfl
        have hof : trade.isOf signal = true := by simp [Trade.isOf, hstrategy, hpair]
        refine ⟨⟨haccount, hopen, ⟨signal, hcurrent, hof⟩, trades, hseen, fun s hs => ?_⟩, fun r => ⟨rfl, ?_, hsame⟩⟩
        · rw [hcurrent] at hs
          cases hs
          exact hnone
        · intro hstage
          cases r <;> cases hstage
    | _ => exact ⟨trivial, fun r => ⟨rfl, hidle, hsame⟩⟩
  refine Meets.mono (fun q r hr => ?_)
    (Meets.sim (R := R) hsim ⟨rfl, fun _ => rfl, rfl, rfl⟩ (t.execute_settling signal))
  obtain ⟨s, ⟨-, -, hsame⟩, -⟩ := hr
  exact hsame

/-- What the gate answers is whether it saw a trade of the signal. -/
theorem accountHasOpenPosition_dispatching (t : Trader) (signal : Signal) (p : DispatchPhase) :
    Meets dispatching p (accountHasOpenPosition t signal) fun q has => p.SameSignals q ∧
      ∃ trades, q.seen = some (t.accountId, trades) ∧ (has = false → ∀ u ∈ trades, u.isOf signal = false) := by
  refine Meets.bind (Meets.bind ⟨trivial, fun r => ?_⟩)
  have hsame : p.SameSignals (p.saw t.accountId r) := p.saw_sameSignals t.accountId r
  cases r with
  | ok trades =>
    refine ⟨hsame, trades, rfl, fun hhas u hu => ?_⟩
    rw [List.any_eq_false] at hhas
    simpa using hhas ⟨u⟩ (List.mem_map_of_mem hu)
  | error e => exact ⟨hsame, [], rfl, fun _ u hu => by cases hu⟩

theorem executeAndRecord_dispatching {t : Trader} {signal : Signal} {p : DispatchPhase}
    (hcurrent : p.current = some signal) :
    Meets dispatching p (executeAndRecord signal t) fun q _ => p.SameSignals q := by
  refine Meets.bind ((accountHasOpenPosition_dispatching t signal p).mono fun q has hq => ?_)
  obtain ⟨⟨hpending, hq⟩, trades, hseen, hnone⟩ := hq
  cases has with
  | true => exact ⟨hpending, hq⟩
  | false =>
    refine Meets.bind ((execute_dispatching (hq.trans hcurrent) hseen (hnone rfl)).mono fun q' _ hq' => ?_)
    exact ⟨hq'.1.trans hpending, hq'.2.trans hq⟩

namespace ExecutorLoopContext

variable {ctx : ExecutorLoopContext} {signal : Signal} {p : DispatchPhase}

theorem checkPriceFreshness_dispatching (exchange : Exchange) :
    Meets dispatching p (ctx.checkPriceFreshness exchange signal) fun q _ => q = p := by
  refine Meets.bind ⟨trivial, fun age => ?_⟩
  show Meets dispatching p (match evalPriceFreshness ctx.priceFreshnessSecs (age.getD (2 ^ 64 - 1)) with
    | .pass => pure true
    | .reject _ => pure false) _
  split <;> exact rfl

theorem reconfirmAccountActive_dispatching (pac : TradingAccount) :
    Meets dispatching p (reconfirmAccountActive pac).run fun q _ => q = p := by
  refine Meets.bind ⟨trivial, fun r => ?_⟩
  cases r <;> exact rfl

theorem dispatchToAccount_dispatching (pac : TradingAccount) (hcurrent : p.current = some signal) :
    Meets dispatching p (ctx.dispatchToAccount pac signal) fun q _ => p.SameSignals q := by
  have same : p.SameSignals p := ⟨rfl, rfl⟩
  simp only [dispatchToAccount]
  split
  · rename_i exchange _
    split
    · rename_i api _
      refine Meets.bind ((checkPriceFreshness_dispatching exchange).mono fun q fresh hq => ?_)
      subst hq
      cases fresh with
      | false => exact same
      | true =>
        simp only [Bool.not_true, Bool.false_eq_true, ↓reduceIte]
        split
        · rename_i trader _
          refine Meets.bind ((reconfirmAccountActive_dispatching pac).mono fun q active hq => ?_)
          subst hq
          rcases active with e | (_ | _)
          · exact same
          · exact same
          · exact Meets.bind ((executeAndRecord_dispatching hcurrent).mono fun _ _ hq => hq)
        · exact same
    · exact same
  · exact same

theorem dispatchToMatchingAccounts_dispatching (hcurrent : p.current = some signal) :
    ∀ (accounts : List TradingAccount) (q : DispatchPhase), p.SameSignals q →
      Meets dispatching q (ctx.dispatchToMatchingAccounts signal accounts) fun q _ => p.SameSignals q := by
  intro accounts
  induction accounts with
  | nil => exact fun q hq => hq
  | cons pac accounts ih =>
    intro q hq
    simp only [dispatchToMatchingAccounts]
    split
    · exact ih q hq
    · refine Meets.bind ((dispatchToAccount_dispatching pac (hq.2.trans hcurrent)).mono fun q' _ hq' => ?_)
      refine Meets.bind ((ih q' ⟨hq'.1.trans hq.1, hq'.2.trans hq.2⟩).mono fun _ _ h => ?_)
      exact h

/-- The loop opens trades only past its gate. -/
theorem executorLoop_dispatching : ∀ (signals : List Signal) (p : DispatchPhase), p.pending = signals →
    Meets dispatching p (ctx.run signals) fun _ _ => True
  | [], _, _ => trivial
  | signal :: signals, p, hp => by
    have hprocess : Meets dispatching p (ctx.processSignal signal) fun q _ => q.pending = signals := by
      refine Meets.bind ⟨trivial, fun r => ?_⟩
      have hpending : p.pending.tail = signals := by rw [hp]; rfl
      have hcurrent : p.pending.head? = some signal := by rw [hp]; rfl
      cases r with
      | error e => exact hpending
      | ok accounts =>
        refine Meets.bind
          ((dispatchToMatchingAccounts_dispatching hcurrent accounts _ ⟨rfl, rfl⟩).mono fun q _ hq => ?_)
        exact hq.1.trans hpending
    exact Meets.bind (hprocess.mono fun q _ hq => executorLoop_dispatching signals q hq)

end ExecutorLoopContext

end AutoTrader
