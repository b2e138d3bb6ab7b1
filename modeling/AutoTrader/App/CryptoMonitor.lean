import AutoTrader.App.Liquidation
import AutoTrader.Core.Event
import AutoTrader.Executor.Settlement

/-!
# The position monitor

At every price event the monitor reads the open trades and asks for the close of those of the event's exchange and
pair that have reached their stop, their target or their time limit. Its close attempts then run beside all other
tasks: `exits_due` says that a trade that one of them has closed was due, by its own row, for the reason that the row
now gives.
-/

namespace AutoTrader

open Lib (History)
open Lib.Table (find?_set)

variable {ε : Type} {E : ExchangeModel ε} {actors : Nat → Actor} {w₀ : World ε}

/-! ## What is asked for -/

/-- What the monitors are given to close trades with. -/
structure CloseContext where
  apis : Exchange → Option ExchangeApi
  positionSizer : PositionSizer
  liquidationLevels : Exchange → Option Decimal
  liveForcesDryRun : Bool

/-- Why the current price closes a trade: its time limit, its stop or its target. -/
def detectExitReason (direction : Direction) (currentPrice stopLoss : Decimal) (takeProfit : Option Decimal)
    (maxHoldUntil : Option DateTime) (now : DateTime) : Option ExitReason :=
  let timeLimitHit := maxHoldUntil.any fun deadline => now ≥ deadline
  let hit : Option ExitReason := match direction with
    | .long =>
      if currentPrice ≤ stopLoss then some .slHit
      else if takeProfit.any fun tp => currentPrice ≥ tp then some .tpHit
      else none
    | .short =>
      if currentPrice ≥ stopLoss then some .slHit
      else if takeProfit.any fun tp => currentPrice ≤ tp then some .tpHit
      else none
  hit.or (if timeLimitHit then some ExitReason.strategyTimeLimit else none)

namespace CloseContext

variable (ctx : CloseContext)

/-- The API that a close uses; a dry run does without one. -/
def resolveCloseApi (trade : Trade) (dryRun : Bool) : Option ExchangeApi :=
  match ctx.apis trade.exchange with
  | some a => some a
  | none => if !dryRun then none else some nullExchangeApi

/-- The attempt that `close_trade` makes, if it makes one; how it ended is only logged and sent on. -/
def closeTrade (trade : Trade) (dryRun : Bool) (exitReason : ExitReason) : Option Actor := do
  let api ← ctx.resolveCloseApi trade dryRun
  let liquidationMarginLevel ← liquidationLevel ctx.liquidationLevels trade.exchange
  let trader : Trader := {
    exchange := trade.exchange, accountId := trade.accountId, requiresClosePositionId := api.requiresClosePositionId
    positionSizer := ctx.positionSizer, liquidationMarginLevel, dryRun }
  return .closePosition trader trade.id exitReason

/-- A trade whose account is not there is left alone. -/
def closeTradeIfExitDue (owned : OpenTradeWithAccount) (event : PriceEvent) (now : DateTime) : Option Actor :=
  let trade := owned.trade
  if trade.exchange ≠ event.exchange ∨ trade.pair ≠ event.pair then none
  else do
    let live ← owned.live
    let dryRun := effectiveDryRun live ctx.liveForcesDryRun
    let reason ← detectExitReason trade.direction event.candle.close trade.stopLoss trade.takeProfit
      trade.maxHoldUntil now
    ctx.closeTrade trade dryRun reason

end CloseContext

/-! ## When an exit is due -/

namespace Trade

variable (t : Trade) (price : Decimal)

/-- The price has reached the stop. -/
def StopReached : Prop := match t.direction with
  | .long => price ≤ t.stopLoss
  | .short => t.stopLoss ≤ price

/-- The price has reached the target. -/
def TargetReached : Prop := ∃ target ∈ t.takeProfit, match t.direction with
  | .long => target ≤ price
  | .short => price ≤ target

/-- The stop goes before the target, and both before the time limit. -/
def DueFor (now : DateTime) : ExitReason → Prop
  | .slHit => t.StopReached price
  | .tpHit => ¬t.StopReached price ∧ t.TargetReached price
  | .strategyTimeLimit => ¬t.StopReached price ∧ ¬t.TargetReached price ∧ ∃ deadline ∈ t.maxHoldUntil, deadline ≤ now
  | _ => False

variable {t price}

theorem exchange_eq {u : Trade} (h : t.terms = u.terms) : t.exchange = u.exchange :=
  show t.terms.exchange = u.terms.exchange by rw [h]

theorem pair_eq {u : Trade} (h : t.terms = u.terms) : t.pair = u.pair :=
  show t.terms.pair = u.terms.pair by rw [h]

theorem dueFor_eq {u : Trade} (h : t.terms = u.terms) (now : DateTime) (reason : ExitReason) :
    t.DueFor price now reason = u.DueFor price now reason :=
  show t.terms.DueFor price now reason = u.terms.DueFor price now reason by rw [h]

theorem detected_iff {now : DateTime} {limit target : Bool} {stop : Prop} [Decidable stop] {reason : ExitReason}
    (hlimit : limit = true ↔ ∃ deadline ∈ t.maxHoldUntil, deadline ≤ now)
    (htarget : target = true ↔ t.TargetReached price) (hstop : stop ↔ t.StopReached price) :
    (if stop then some ExitReason.slHit else if target then some .tpHit else none).or
      (if limit then some .strategyTimeLimit else none) = some reason ↔ t.DueFor price now reason := by
  by_cases hs : stop
  · have hreached := hstop.mp hs
    cases reason <;> simp [hs, DueFor, hreached]
  have hnot : ¬t.StopReached price := fun h => hs (hstop.mpr h)
  cases target with
  | true =>
    have hreached := htarget.mp rfl
    cases reason <;> simp [hs, DueFor, hnot, hreached]
  | false =>
    have hmissed : ¬t.TargetReached price := fun h => Bool.false_ne_true (htarget.mpr h)
    simp only [hs, ↓reduceIte, Bool.false_eq_true, Option.none_or]
    cases limit with
    | true =>
      have hup := hlimit.mp rfl
      cases reason <;> simp only [DueFor, hnot, hmissed, hup, not_false_eq_true] <;> simp
    | false =>
      have hearly : ¬∃ deadline ∈ t.maxHoldUntil, deadline ≤ now := fun h => Bool.false_ne_true (hlimit.mpr h)
      cases reason <;> simp only [DueFor, hnot, hmissed, hearly] <;> simp

theorem detectExitReason_iff (now : DateTime) (reason : ExitReason) :
    detectExitReason t.direction price t.stopLoss t.takeProfit t.maxHoldUntil now = some reason ↔
      t.DueFor price now reason := by
  have hlimit : (t.maxHoldUntil.any fun deadline => decide (now ≥ deadline)) = true ↔
      ∃ deadline ∈ t.maxHoldUntil, deadline ≤ now := by
    cases t.maxHoldUntil <;> simp
  unfold detectExitReason
  cases hdirection : t.direction with
  | long =>
    have htarget : (t.takeProfit.any fun tp => decide (price ≥ tp)) = true ↔ t.TargetReached price := by
      simp only [TargetReached, hdirection]
      cases t.takeProfit <;> simp
    have hstop : price ≤ t.stopLoss ↔ t.StopReached price := by
      simp only [StopReached, hdirection]
    dsimp only
    exact detected_iff hlimit htarget hstop
  | short =>
    have htarget : (t.takeProfit.any fun tp => decide (price ≤ tp)) = true ↔ t.TargetReached price := by
      simp only [TargetReached, hdirection]
      cases t.takeProfit <;> simp
    have hstop : price ≥ t.stopLoss ↔ t.StopReached price := by
      simp only [StopReached, hdirection, ge_iff_le]
    dsimp only
    exact detected_iff hlimit htarget hstop

theorem DueFor.unique {now : DateTime} {reason reason' : ExitReason} (h : t.DueFor price now reason)
    (h' : t.DueFor price now reason') : reason = reason' :=
  Option.some.inj (((detectExitReason_iff now reason).mpr h).symm.trans ((detectExitReason_iff now reason').mpr h'))

end Trade

/-! ## What an attempt is asked for by -/

/-- What the monitor goes by when it asks for a close. -/
structure Sighting where
  event : PriceEvent
  owned : OpenTradeWithAccount
  now : DateTime

/-- The trade is on the event's exchange and pair, and its exit is due. -/
structure Sighting.Due (s : Sighting) (t : Trade) (reason : ExitReason) : Prop where
  exchange : t.exchange = s.event.exchange
  pair : t.pair = s.event.pair
  due : t.DueFor s.event.candle.close s.now reason

theorem Sighting.Due.of_terms {s : Sighting} {t u : Trade} {reason : ExitReason} (h : s.Due t reason)
    (hterms : u.terms = t.terms) : s.Due u reason where
  exchange := (Trade.exchange_eq hterms).trans h.exchange
  pair := (Trade.pair_eq hterms).trans h.pair
  due := (Trade.dueFor_eq hterms _ _).mpr h.due

namespace CloseContext

variable {ctx : CloseContext} {owned : OpenTradeWithAccount} {event : PriceEvent} {now : DateTime}

/-- The monitor asks for a close iff the account is there, an exit is due, and `close_trade` makes an attempt. -/
theorem closeTradeIfExitDue_iff {a : Actor} : ctx.closeTradeIfExitDue owned event now = some a ↔
    ∃ live reason, owned.live = some live ∧ Sighting.Due ⟨event, owned, now⟩ owned.trade reason ∧
      ctx.closeTrade owned.trade (effectiveDryRun live ctx.liveForcesDryRun) reason = some a := by
  unfold closeTradeIfExitDue
  dsimp only
  by_cases hout : owned.trade.exchange ≠ event.exchange ∨ owned.trade.pair ≠ event.pair
  · rw [if_pos hout]
    refine iff_of_false nofun fun ⟨_, _, _, hdue, _⟩ => ?_
    exact hout.elim (fun h => h hdue.exchange) fun h => h hdue.pair
  rw [if_neg hout]
  rw [not_or, not_not, not_not] at hout
  simp only [Option.bind_eq_bind, Option.bind_eq_some_iff, Trade.detectExitReason_iff]
  constructor
  · rintro ⟨live, hlive, reason, hdue, hclose⟩
    exact ⟨live, reason, hlive, ⟨hout.1, hout.2, hdue⟩, hclose⟩
  · rintro ⟨live, reason, hlive, hdue, hclose⟩
    exact ⟨live, hlive, reason, hdue.due, hclose⟩

theorem closeTradeIfExitDue_eq {live : Bool} {reason : ExitReason} (hlive : owned.live = some live)
    (hdue : Sighting.Due ⟨event, owned, now⟩ owned.trade reason) : ctx.closeTradeIfExitDue owned event now =
      ctx.closeTrade owned.trade (effectiveDryRun live ctx.liveForcesDryRun) reason := by
  refine Option.ext fun a => closeTradeIfExitDue_iff.trans ⟨?_, fun h => ⟨live, reason, hlive, hdue, h⟩⟩
  rintro ⟨live', reason', hlive', hdue', h⟩
  cases hlive.symm.trans hlive'
  cases hdue.due.unique hdue'.due
  exact h

/-- An attempt is on the exchange and the account of the trade. -/
theorem closeTrade_some {trade : Trade} {dryRun : Bool} {reason : ExitReason} {a : Actor}
    (h : ctx.closeTrade trade dryRun reason = some a) :
    ∃ trader : Trader, a = .closePosition trader trade.id reason ∧ trader.exchange = trade.exchange ∧
      trader.accountId = trade.accountId ∧ trader.dryRun = dryRun := by
  unfold closeTrade at h
  simp only [Option.bind_eq_bind, Option.bind_eq_some_iff] at h
  obtain ⟨api, -, level, -, h⟩ := h
  exact ⟨_, (Option.some.inj h).symm, rfl, rfl, rfl⟩

end CloseContext

/-! ## Runs -/

/-- An earlier part of a run, or all of it. -/
def Run.Before (p : Run ε) : Run ε → Prop
  | .start c => p = .start c
  | .step h l c => p = .step h l c ∨ Run.Before p h

/-- The monitor has read the open trades in a state that the run went through, and the trade was among them. -/
def Sighting.ReadIn (s : Sighting) (h : Run ε) : Prop :=
  ∃ p : Run ε, Run.Before p h ∧ ∃ openTrades db,
    listOpenWithAccountName.run p.world.now p.world.db = .ok (openTrades, db) ∧ s.owned ∈ openTrades

/-- Some close attempts are those that the monitor has asked for, each by what it had read before. -/
structure Monitored (ctx : CloseContext) (sight : Nat → Option Sighting) (actors : Nat → Actor) (h : Run ε) :
    Prop where
  asked : ∀ i s, sight i = some s → ctx.closeTradeIfExitDue s.owned s.event s.now = some (actors i)
  read : ∀ i s, sight i = some s → h.stage actors i ≠ .idle → s.ReadIn h

/-- The terms of a trade stay those of its row. -/
theorem Run.Of.readTerms {p : Run ε} {t : Trade} (ht : ReadTerms p.world.db t) :
    ∀ {h : Run ε}, h.Of E w₀ actors → Run.Before p h → ReadTerms h.world.db t
  | .start c, _, hp => by
    cases (show p = .start c from hp)
    exact ht
  | .step h l c, hv, hp => by
    rcases (show p = .step h l c ∨ Run.Before p h from hp) with rfl | hp
    · exact ht
    have hread := Run.Of.readTerms ht hv.1 hp
    rcases Run.world_cases hv.2 with ⟨i, q, a, -, hw, -⟩ | ⟨i, q, e, -, hw⟩ | ⟨j, l, -, hw⟩ | ⟨hw, -⟩
    · exact hread.wrote hw
    · rw [History.world_step, hw]
      exact hread
    · rw [History.world_step, hw]
      simpa only [ReadTerms, setLeverage_trades] using hread
    · rw [History.world_step, hw]
      exact hread

theorem mem_list {now : DateTime} {db db' : Db} {openTrades : List OpenTradeWithAccount} {r : TradeRow}
    {account : TradingAccount} (h : listOpenWithAccountName.run now db = .ok (openTrades, db'))
    (hr : db.trades.find? r.id = some r) (hopen : r.status = .open)
    (ha : db.accounts.find? r.accountId = some account) : ⟨r.toTrade, some account.live⟩ ∈ openTrades := by
  obtain ⟨-, hperm, hlive⟩ := listOpenWithAccountName_ok h
  have hrow : r.toTrade ∈ (db.trades.rows.filter fun r => r.status = .open).map TradeRow.toTrade :=
    List.mem_map_of_mem (List.mem_filter.mpr ⟨Lib.Table.mem_iff_find?.mpr hr, decide_eq_true hopen⟩)
  obtain ⟨⟨trade, live⟩, ho, htrade⟩ := List.mem_map.mp (hperm.mem_iff.mpr hrow)
  cases (show trade = r.toTrade from htrade)
  have hlive : live = _ := hlive _ ho
  rw [ha] at hlive
  cases hlive
  exact ho

theorem readTerms_of_list {now : DateTime} {db db' : Db} {openTrades : List OpenTradeWithAccount}
    {owned : OpenTradeWithAccount} (h : listOpenWithAccountName.run now db = .ok (openTrades, db'))
    (ho : owned ∈ openTrades) : ReadTerms db owned.trade := by
  obtain ⟨-, hperm, -⟩ := listOpenWithAccountName_ok h
  obtain ⟨r, hr, htrade⟩ := List.mem_map.mp (hperm.mem_iff.mp (List.mem_map_of_mem ho))
  rw [← htrade]
  exact ⟨r, Lib.Table.mem_iff_find?.mp (List.mem_filter.mp hr).1, rfl⟩

/-! ## What an attempt has closed -/

/-- The trade is closed for `reason`. -/
def Db.ClosedFor (db : Db) (id : Uuid) (reason : ExitReason) : Prop :=
  ∃ r, db.trades.find? id = some r ∧ r.status = .closed ∧ r.exitReason = some reason

/-- A close attempt holds the trade that it is for, and closes it for its reason. -/
structure ClosesAsked (actors : Nat → Actor) (db : Db) (stage : Nat → Stage) : Prop where
  held : ∀ i t trader uuid reason, stage i = .holding t → actors i = .closePosition trader uuid reason → t.id = uuid
  closed : ∀ i t trader uuid reason, stage i = .closed t → actors i = .closePosition trader uuid reason →
    t.id = uuid ∧ db.ClosedFor uuid reason

section

variable {now : DateTime} {db db' : Db} {st : Nat → Stage} {i : Nat} {q : Query} {a : q.Ok}

theorem Db.ClosedFor.wrote {id : Uuid} {reason : ExitReason} (h : db.ClosedFor id reason)
    (hw : q.wrote now db a db') : db'.ClosedFor id reason := by
  obtain ⟨r, hr, hc, hreason⟩ := h
  obtain ⟨r', hr', hs⟩ := Query.wrote_row hw hr
  obtain ⟨hstatus, -, -, hkept, -⟩ := hs.closed hc
  exact ⟨r', hr', hstatus, hkept.trans hreason⟩

/-- A step of task `i` to stage `s`, given what that stage says of the trade. -/
theorem ClosesAsked.update {s : Stage} (h : ClosesAsked actors db st)
    (hrows : ∀ id reason, db.ClosedFor id reason → db'.ClosedFor id reason)
    (held : ∀ t trader uuid reason, s = .holding t → actors i = .closePosition trader uuid reason → t.id = uuid)
    (closed : ∀ t trader uuid reason, s = .closed t → actors i = .closePosition trader uuid reason →
      t.id = uuid ∧ db'.ClosedFor uuid reason) :
    ClosesAsked actors db' (Function.update st i s) := by
  refine ⟨?_, ?_⟩
  · exact (Function.forall_update_iff st fun j s => ∀ t trader uuid reason, s = .holding t →
      actors j = .closePosition trader uuid reason → t.id = uuid).mpr ⟨held, fun j _ => h.held j⟩
  · refine (Function.forall_update_iff st fun j s => ∀ t trader uuid reason, s = .closed t →
      actors j = .closePosition trader uuid reason → t.id = uuid ∧ db'.ClosedFor uuid reason).mpr ⟨closed, ?_⟩
    exact fun j _ t trader uuid reason hj ha => (h.closed j t trader uuid reason hj ha).imp_right (hrows uuid reason)

theorem ClosesAsked.query (h : ClosesAsked actors db st) (hq : (actors i).MayAsk (st i) q)
    (hw : q.wrote now db a db') : ClosesAsked actors db' (Function.update st i ((st i).after q (.ok a))) := by
  have hrows : ∀ id reason, db.ClosedFor id reason → db'.ClosedFor id reason := fun _ _ hc => hc.wrote hw
  generalize ha : actors i = act at hq
  generalize hs : st i = s at hq ⊢
  cases hq with
  | account | openTrade | unlock | overnightFee | sfdFee | swapFee | addFees | reconcile | release =>
    exact h.update hrows (fun _ _ _ _ ht => Stage.noConfusion ht) fun _ _ _ _ ht => Stage.noConfusion ht
  | select =>
    refine h.update hrows (fun t _ _ _ ht => ?_) fun t _ _ _ ht => ?_ <;> cases a <;> cases ht
  | lock =>
    refine h.update hrows (fun t trader uuid reason ht he => ?_) fun t _ _ _ ht => ?_
    · rw [ha] at he
      cases he
      cases a with
      | none => cases ht
      | some lock =>
        cases ht
        rcases hw with ⟨r, hr, -, hlock, -⟩ | ⟨hlock, -⟩
        · cases Option.some.inj hlock
          have hid : r.id = _ := Db.trade_id hr
          exact hid
        · cases hlock
    · cases a <;> cases ht
  | @close _ uuid reason trade price commission sfd exitAt =>
    refine h.update hrows (fun _ _ _ _ ht => Stage.noConfusion ht) fun t trader uuid' reason' ht he => ?_
    rw [ha] at he
    cases he
    cases ht
    have hid : trade.id = uuid := h.held i trade _ uuid reason hs ha
    obtain ⟨r, account, ns, hr, -, -, rfl⟩ := hw
    have hr : db.trades.find? trade.id = some r := hr
    have hkey : r.id = trade.id := Db.trade_id hr
    refine ⟨hid, r.settle price exitAt (Trader.closePnl trade price) reason (trade.fees + commission + sfd), ?_,
      rfl, rfl⟩
    have hset := find?_set
      (v := r.settle price exitAt (Trader.closePnl trade price) reason (trade.fees + commission + sfd))
      (by rw [← hkey] at hr; exact hr) uuid
    exact hset.trans (if_pos (hid.symm.trans hkey.symm))

theorem ClosesAsked.failed {e : Error} (h : ClosesAsked actors db st) (hq : (actors i).MayAsk (st i) q) :
    ClosesAsked actors db (Function.update st i ((st i).after q (.error e))) := by
  generalize actors i = act at hq
  refine h.update (fun _ _ hc => hc) (fun t _ _ _ ht => ?_) fun t _ _ _ ht => ?_ <;>
  · generalize st i = s at hq ht
    cases hq <;> cases ht

end

theorem Run.Of.closesAsked {h : Run ε} (hv : h.Of E w₀ actors) : ClosesAsked actors h.world.db (h.stage actors) := by
  refine hv.db_invariant ⟨fun _ _ _ _ _ hs => Stage.noConfusion hs, fun _ _ _ _ _ hs => Stage.noConfusion hs⟩
    (fun _ _ _ _ _ _ _ h hq hw => h.query hq hw) (fun _ _ _ _ _ h hq => h.failed hq)
    fun db st accountId leverage h => ?_
  refine ⟨h.held, ?_⟩
  simpa only [Db.ClosedFor, setLeverage_trades] using h.closed

/-- An attempt that returned has closed the trade that it was for, for its reason, and the terms are those that were
read of the trade before the attempt. -/
theorem Run.Of.closed_as_read {h : Run ε} (hv : h.Of E w₀ actors) {i : Nat} {trader : Trader} {trade t : Trade}
    {reason : ExitReason} (ha : actors i = .closePosition trader trade.id reason)
    (hread : h.stage actors i ≠ .idle → ∃ p : Run ε, Run.Before p h ∧ ReadTerms p.world.db trade)
    (hclosed : h.last.thread i = .done (.ok (.closed t))) : t.id = trade.id ∧
      ∃ r, h.world.db.trades.find? t.id = some r ∧ r.status = .closed ∧ r.exitReason = some reason ∧
        r.terms = trade.terms := by
  have hstage : h.stage actors i = .closed t := hv.ended hclosed
  obtain ⟨hid, r, hr, hstatus, hreason⟩ := hv.closesAsked.closed i t trader _ reason hstage ha
  obtain ⟨p, hp, hterms⟩ := hread (by rw [hstage]; exact Stage.noConfusion)
  obtain ⟨u, hu, hterms⟩ := Run.Of.readTerms hterms hv hp
  cases hu.symm.trans hr
  exact ⟨hid, r, hid ▸ hr, hstatus, hreason, hterms⟩

/-- In every run of any tasks in which some close attempts are those that the monitor has asked for, each by what it
had read before: such an attempt that returned has closed the trade that was sighted, for which an exit was due by its
own row, on its exchange, its pair and its account, and the row gives the reason of that exit. And whenever an exit of
an open trade is due, a monitor that reads the open trades then asks for the close for that reason. -/
theorem exits_due {ctx : CloseContext} {sight : Nat → Option Sighting} {h : Run ε} (hv : h.Of E w₀ actors)
    (hm : Monitored ctx sight actors h) :
    (∀ i s t, sight i = some s → h.last.thread i = .done (.ok (.closed t)) →
      t.id = s.owned.trade.id ∧ ∃ r reason live trader, h.world.db.trades.find? t.id = some r ∧ r.status = .closed ∧
        r.exitReason = some reason ∧ s.Due r.toTrade reason ∧ actors i = .closePosition trader t.id reason ∧
        trader.exchange = r.exchange ∧ trader.accountId = r.accountId ∧ s.owned.live = some live ∧
        trader.dryRun = effectiveDryRun live ctx.liveForcesDryRun) ∧
    ∀ r account openTrades db event now reason, h.world.db.trades.find? r.id = some r → r.status = .open →
      h.world.db.accounts.find? r.accountId = some account →
      listOpenWithAccountName.run h.world.now h.world.db = .ok (openTrades, db) →
      Sighting.Due ⟨event, ⟨r.toTrade, some account.live⟩, now⟩ r.toTrade reason →
      ⟨r.toTrade, some account.live⟩ ∈ openTrades ∧
        ctx.closeTradeIfExitDue ⟨r.toTrade, some account.live⟩ event now =
          ctx.closeTrade r.toTrade (effectiveDryRun account.live ctx.liveForcesDryRun) reason := by
  refine ⟨fun i s t hs hclosed => ?_, fun r account openTrades db event now reason hr hopen ha hlist hdue => ?_⟩
  · obtain ⟨live, reason, hlive, hdue, hclose⟩ := CloseContext.closeTradeIfExitDue_iff.mp (hm.asked i s hs)
    obtain ⟨trader, hactor, hexchange, haccount, hdry⟩ := CloseContext.closeTrade_some hclose
    obtain ⟨hid, r, hr, hstatus, hreason, hterms⟩ := hv.closed_as_read hactor (fun hstarted => by
      obtain ⟨p, hp, openTrades, db, hlist, ho⟩ := hm.read i s hs hstarted
      exact ⟨p, hp, readTerms_of_list hlist ho⟩) hclosed
    exact ⟨hid, r, reason, live, trader, hr, hstatus, hreason, hdue.of_terms hterms, hid ▸ hactor,
      hexchange.trans (Trade.exchange_eq hterms).symm, haccount.trans (Trade.accountId_eq hterms).symm, hlive, hdry⟩
  · exact ⟨mem_list hlist hr hopen ha, CloseContext.closeTradeIfExitDue_eq rfl hdue⟩

/-! ## A run -/

theorem Run.Of.start_before : ∀ {h : Run ε}, h.Of E w₀ actors → Run.Before (.start (begin w₀ actors)) h
  | .start _, hv => congrArg History.start (show _ = begin w₀ actors from hv).symm
  | .step _ _ _, hv => .inr (Run.Of.start_before hv.1)

/-- The trade that a close attempt has returned. -/
def closedTradeOf : Lib.Prog Calls (Except Error Outcome) → Option Trade
  | .done (.ok (.closed t)) => some t
  | _ => none

theorem closedTradeOf_some {x : Lib.Prog Calls (Except Error Outcome)} (h : (closedTradeOf x).isSome) :
    ∃ t, x = .done (.ok (.closed t)) := by
  unfold closedTradeOf at h
  split at h
  · exact ⟨_, rfl⟩
  · cases h

/-- A context in which everything is a dry run. -/
def sampleCloseContext : CloseContext where
  apis _ := none
  positionSizer := (sampleTrader true).positionSizer
  liquidationLevels _ := some 1
  liveForcesDryRun := true

/-- The price has fallen below the stop of `sampleTrade`. -/
def sampleSighting : Sighting where
  event := ⟨"FX_BTC_JPY", .bitflyerCfd, ⟨"FX_BTC_JPY", .bitflyerCfd, "M5", 98, 98, 98, 98, none, none, none, 0⟩, 0⟩
  owned := ⟨sampleTrade.toTrade, some true⟩
  now := 0

/-- The one attempt that the monitor has asked for. -/
def sampleSight (i : Nat) : Option Sighting := if i = 0 then some sampleSighting else none

/-- A close of the sample trade at its stop. -/
def sampleStopRun : Run Unit :=
  .play anyExchange ⟨sampleOpenDb, (), 0⟩ (fun _ => .closePosition (sampleTrader true) 7 .slHit)
    [.commit 0, .price 0 98 99, .clock 0, .commit 0]

theorem sampleStopRun_monitored : Monitored sampleCloseContext sampleSight
    (fun _ => .closePosition (sampleTrader true) 7 .slHit) sampleStopRun := by
  have sighted : ∀ i s, sampleSight i = some s → s = sampleSighting := fun i s hs =>
    (Option.some.inj (Option.ite_none_right_eq_some.mp hs).2).symm
  refine ⟨fun i s hs => ?_, fun i s hs _ => ?_⟩
  · rw [sighted i s hs]
    refine CloseContext.closeTradeIfExitDue_iff.mpr ⟨true, .slHit, rfl, ⟨rfl, rfl, ?_⟩, rfl⟩
    show (98 : Decimal) ≤ 99
    decide +kernel
  · rw [sighted i s hs]
    refine ⟨_, Run.Of.start_before (Run.play_of anyExchange _ _ _), _, _, rfl, ?_⟩
    have hrow : sampleOpenDb.trades.find? 7 = some sampleTrade := by decide +kernel
    have haccount : sampleOpenDb.accounts.find? 1 = some { sampleAccount with currentBalance := 980 } := by
      decide +kernel
    exact @mem_list 0 sampleOpenDb _ _ sampleTrade _ rfl hrow rfl haccount

theorem sampleStopRun_due : ∃ t r reason, sampleStopRun.last.thread 0 = .done (.ok (.closed t)) ∧
    sampleStopRun.world.db.trades.find? t.id = some r ∧ r.status = .closed ∧ r.exitReason = some reason ∧
      sampleSighting.Due r.toTrade reason := by
  obtain ⟨t, ht⟩ := closedTradeOf_some (x := sampleStopRun.last.thread 0) (by decide +kernel)
  have hdue := (exits_due (Run.play_of _ _ _ _) sampleStopRun_monitored).1 0 sampleSighting t rfl ht
  obtain ⟨-, r, reason, -, -, hr, hstatus, hreason, hsighted, -⟩ := hdue
  exact ⟨t, r, reason, ht, hr, hstatus, hreason, hsighted⟩

end AutoTrader
