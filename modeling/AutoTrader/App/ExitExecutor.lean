import AutoTrader.App.CryptoMonitor
import AutoTrader.Backtest.Runner
import AutoTrader.Strategy.Engine

/-!
# The exit executor

The exits that the strategies ask for are queued, and the exit executor asks for the close of the trade of each, if it
is still open. Its close attempts then run beside all other tasks: `strategy_exits_due` says that a trade that one of
them has closed was due, by its own row, by the rule of its own strategy and what that strategy had been shown.
-/

namespace AutoTrader

variable {ε : Type} {E : ExchangeModel ε} {actors : Nat → Actor} {w₀ : World ε}

/-! ## What is asked for -/

/-- The trade with its account, if it is open. -/
def getOpenTradeWithAccount (tradeId : Uuid) : Tx (Option OpenTradeWithAccount) := do
  let db ← get
  let row := (db.trades.find? tradeId).filter fun r => r.status = .open
  return row.map fun r => ⟨r.toTrade, (db.accounts.find? r.accountId).map TradingAccount.live⟩

namespace CloseContext

variable (ctx : CloseContext)

/-- The trader that executes an exit. -/
def buildExitTrader (trade : Trade) (api : ExchangeApi) (dryRun : Bool) : Option Trader := do
  let liquidationMarginLevel ← liquidationLevel ctx.liquidationLevels trade.exchange
  return {
    exchange := trade.exchange, accountId := trade.accountId, requiresClosePositionId := api.requiresClosePositionId
    positionSizer := ctx.positionSizer, liquidationMarginLevel, dryRun }

/-- The attempt for an exit, given what the database answers. -/
def processExit (exit : ExitSignal) (read : Except Error (Option OpenTradeWithAccount)) : Option Actor :=
  match read with
  | .ok (some owned) => do
    let live ← owned.live
    let dryRun := effectiveDryRun live ctx.liveForcesDryRun
    let api ← ctx.resolveCloseApi owned.trade dryRun
    let trader ← ctx.buildExitTrader owned.trade api dryRun
    return .closePosition trader owned.trade.id exit.reason.toExitReason
  | .ok none | .error _ => none

theorem processExit_some {ctx : CloseContext} {exit : ExitSignal} {owned : OpenTradeWithAccount} {a : Actor}
    (h : ctx.processExit exit (.ok (some owned)) = some a) :
    ∃ trader : Trader, a = .closePosition trader owned.trade.id exit.reason.toExitReason ∧
      trader.exchange = owned.trade.exchange ∧ trader.accountId = owned.trade.accountId := by
  unfold processExit buildExitTrader at h
  simp only [Option.bind_eq_bind, Option.bind_eq_some_iff] at h
  obtain ⟨live, -, api, -, trader, ⟨level, -, htrader⟩, h⟩ := h
  cases htrader
  exact ⟨_, (Option.some.inj h).symm, rfl, rfl⟩

end CloseContext

theorem getOpenTradeWithAccount_ok {tradeId : Uuid} {now : DateTime} {db db' : Db} {owned : OpenTradeWithAccount}
    (h : (getOpenTradeWithAccount tradeId).run now db = .ok (some owned, db')) :
    ∃ r, db.trades.find? tradeId = some r ∧ r.status = .open ∧ owned.trade = r.toTrade := by
  simp only [getOpenTradeWithAccount, Tx.ok_bind, Tx.run_get, Tx.run_pure] at h
  obtain ⟨_, _, ⟨rfl, rfl⟩, h, -⟩ := h
  obtain ⟨r, hr, rfl⟩ := Option.map_eq_some_iff.mp h
  obtain ⟨hfind, hopen⟩ := Option.filter_eq_some_iff.mp hr
  exact ⟨r, hfind, of_decide_eq_true hopen, rfl⟩

/-- The rule of a strategy goes by the terms of a trade. -/
theorem Registered.exitDue_eq {reg : Registered} {shown : List PriceEvent} {event : PriceEvent} {t u : Trade}
    (h : t.terms = u.terms) (reason : StrategyExitReason) :
    reg.ExitDue shown event t reason = reg.ExitDue shown event u reason := by
  have hterms (v : Trade) : reg.ExitDue shown event v reason = reg.ExitDue shown event v.terms reason := by
    cases reg with
    | rule kind name pairs => cases kind <;> rfl
    | swingLlmV1 => rfl
  rw [hterms t, hterms u, h]

/-! ## Runs -/

/-- What the exit executor goes by: an exit that the strategies have asked for at an event, and its trade. -/
structure ExitSighting where
  /-- What the engine was handed before. -/
  inputs : List EngineInput
  event : PriceEvent
  /-- The open trades that the engine was given. -/
  rows : List OpenTradeWithAccount
  exit : ExitSignal
  /-- The trade as the exit executor found it. -/
  owned : OpenTradeWithAccount

section

variable (stdDev : Decimal → Option Decimal) (toDecimal : Rat → Except Error Decimal)
  (slots : List (Registered × String))

/-- The engine sends the exit at the event. -/
def ExitSighting.Sent (s : ExitSighting) : Prop :=
  ∃ engine engine' exits, (engineOf slots).after stdDev toDecimal s.inputs = .ok engine ∧
    engine.step stdDev toDecimal (.price s.event (.ok s.rows)) = .ok (engine', exits) ∧ s.exit ∈ exits

/-- What was read was read in states that the run went through. -/
structure ExitSighting.ReadIn (s : ExitSighting) (h : Run ε) : Prop where
  rows : ∃ p : Run ε, Run.Before p h ∧ ∃ db,
    (listOpenWithAccountNameForPair s.event.exchange s.event.pair).run p.world.now p.world.db = .ok (s.rows, db)
  owned : ∃ p : Run ε, Run.Before p h ∧ ∃ db,
    (getOpenTradeWithAccount s.exit.tradeId).run p.world.now p.world.db = .ok (some s.owned, db)

/-- Some close attempts are those that the exit executor has asked for, each by what was read before. -/
structure ExitsExecuted (ctx : CloseContext) (sight : Nat → Option ExitSighting) (actors : Nat → Actor) (h : Run ε) :
    Prop where
  sent : ∀ i s, sight i = some s → s.Sent stdDev toDecimal slots
  asked : ∀ i s, sight i = some s → ctx.processExit s.exit (.ok (some s.owned)) = some (actors i)
  read : ∀ i s, sight i = some s → h.stage actors i ≠ .idle → s.ReadIn h

/-- An exit that is sent is that of a trade of the event's market, which the rule of its enabled strategy asks for. -/
structure ExitSighting.DueBy (s : ExitSighting) (slot : Registered × String) (t : Trade) : Prop where
  enabled : slot.2 ≠ "disabled"
  strategy : t.strategyName = slot.1.name
  exchange : t.exchange = s.event.exchange
  pair : t.pair = s.event.pair
  due : slot.1.ExitDue (shownTo slot.2 s.inputs ++ [s.event]) s.event t s.exit.reason

variable {stdDev toDecimal slots}

theorem ExitSighting.DueBy.of_terms {s : ExitSighting} {slot : Registered × String} {t u : Trade} (h : s.DueBy slot t)
    (hterms : u.terms = t.terms) : s.DueBy slot u where
  enabled := h.enabled
  strategy := (show u.terms.strategyName = t.terms.strategyName by rw [hterms]).trans h.strategy
  exchange := (Trade.exchange_eq hterms).trans h.exchange
  pair := (Trade.pair_eq hterms).trans h.pair
  due := by
    rw [Registered.exitDue_eq hterms]
    exact h.due

theorem ExitSighting.Sent.due {s : ExitSighting} {now : DateTime} {db db' : Db} (h : s.Sent stdDev toDecimal slots)
    (hread : (listOpenWithAccountNameForPair s.event.exchange s.event.pair).run now db = .ok (s.rows, db')) :
    ∃ slot ∈ slots, ∃ owned ∈ s.rows, owned.trade.id = s.exit.tradeId ∧ s.DueBy slot owned.trade := by
  obtain ⟨engine, engine', exits, hrun, hstep, hexit⟩ := h
  obtain ⟨done, hdone, heq⟩ := Lib.map_eq_ok.mp hstep
  obtain ⟨-, rfl⟩ := Prod.mk.inj heq
  obtain ⟨-, parts, hexits, hparts⟩ := dispatch_kept (after_saw hrun) s.event (.ok s.rows) s.rows rfl hdone
  rw [hexits] at hexit
  obtain ⟨slot, hslot, henabled, owned, ho, hid, hname, hpair, hdue, -⟩ := (hparts.mem_iff s.exit).mp hexit
  obtain ⟨hmarket, -⟩ := listForPair_ok hread
  exact ⟨slot, hslot, owned, ho, hid, henabled, hname, (hmarket owned ho).1, hpair, hdue⟩

theorem readTerms_of_listForPair {exchange : Exchange} {pair : Pair} {now : DateTime} {db db' : Db}
    {rows : List OpenTradeWithAccount} {owned : OpenTradeWithAccount}
    (h : (listOpenWithAccountNameForPair exchange pair).run now db = .ok (rows, db')) (ho : owned ∈ rows) :
    ReadTerms db owned.trade := by
  simp only [listOpenWithAccountNameForPair, Tx.ok_bind, Tx.run_pure] at h
  obtain ⟨openTrades, db₁, hlist, rfl, rfl⟩ := h
  exact readTerms_of_list hlist (List.mem_filter.mp ho).1

end

/-- In every run of any tasks in which some close attempts are those that the exit executor has asked for, for exits
that the engine has sent by the open trades it was given, all read before: such an attempt that returned has closed the
trade that the exit names, the row gives the reason of the exit, and by that row the exit was due by the rule of its
own enabled strategy, on what that strategy had been shown. -/
theorem strategy_exits_due {stdDev : Decimal → Option Decimal} {toDecimal : Rat → Except Error Decimal}
    {slots : List (Registered × String)} {ctx : CloseContext} {sight : Nat → Option ExitSighting} {h : Run ε}
    (hv : h.Of E w₀ actors) (hm : ExitsExecuted stdDev toDecimal slots ctx sight actors h) (i : Nat) (s : ExitSighting)
    (t : Trade) (hs : sight i = some s) (hclosed : h.last.thread i = .done (.ok (.closed t))) :
    t.id = s.exit.tradeId ∧ ∃ r, h.world.db.trades.find? t.id = some r ∧ r.status = .closed ∧
      r.exitReason = some s.exit.reason.toExitReason ∧ ∃ slot ∈ slots, s.DueBy slot r.toTrade := by
  obtain ⟨trader, hactor, -, -⟩ := CloseContext.processExit_some (hm.asked i s hs)
  have hstarted : h.stage actors i ≠ .idle := by
    rw [show h.stage actors i = .closed t from hv.ended hclosed]
    exact Stage.noConfusion
  obtain ⟨⟨p, hp, db, hrows⟩, p', -, db', howned⟩ := hm.read i s hs hstarted
  obtain ⟨u, hu, -, htrade⟩ := getOpenTradeWithAccount_ok howned
  have hkey : s.owned.trade.id = s.exit.tradeId := by
    rw [htrade]
    exact Db.trade_id hu
  obtain ⟨slot, hslot, owned, ho, hexit, hdue⟩ := (hm.sent i s hs).due hrows
  rw [hkey, ← hexit] at hactor
  obtain ⟨hid, r, hr, hstatus, hreason, hterms⟩ := hv.closed_as_read hactor
    (fun _ => ⟨p, hp, readTerms_of_listForPair hrows ho⟩) hclosed
  exact ⟨hid.trans hexit, r, hr, hstatus, hreason, slot, hslot, hdue.of_terms hterms⟩

/-! ## A run -/

/-- `sampleHeld` on an account that is there. -/
def sampleExecutedDb : Db :=
  { sampleExitDb with accounts := ⟨[{ sampleAccount with exchange := .gmoFx }], by decide⟩ }

/-- An exit of the sample trade at its mean. -/
def sampleExitSighting : ExitSighting where
  inputs := sampleShown
  event := sampleM5Bar 19 101
  rows := [⟨sampleHeld.toTrade, some true⟩]
  exit := ⟨7, .meanReached, 101⟩
  owned := ⟨sampleHeld.toTrade, some true⟩

theorem sampleExitSighting_sent :
    sampleExitSighting.Sent (fun _ => none) (fun _ => .error []) sampleSlots := by
  have hexits : (((engineOf sampleSlots).after (fun _ => none) (fun _ => .error []) sampleShown).bind fun engine =>
      (engine.step (fun _ => none) (fun _ => .error []) (.price (sampleM5Bar 19 101)
        (.ok [⟨sampleHeld.toTrade, some true⟩]))).map Prod.snd).toOption = some [⟨7, .meanReached, 101⟩] := by
    decide +kernel
  generalize hrun : (engineOf sampleSlots).after (fun _ => none) (fun _ => .error []) sampleShown = run at hexits
  cases run with
  | error panic => cases hexits
  | ok engine =>
    change ((engine.step (fun _ => none) (fun _ => .error []) (.price (sampleM5Bar 19 101)
      (.ok [⟨sampleHeld.toTrade, some true⟩]))).map Prod.snd).toOption = _ at hexits
    generalize hstep : engine.step (fun _ => none) (fun _ => .error []) (.price (sampleM5Bar 19 101)
      (.ok [⟨sampleHeld.toTrade, some true⟩])) = answer at hexits
    cases answer with
    | error panic => cases hexits
    | ok answer =>
      obtain ⟨engine', exits⟩ := answer
      refine ⟨engine, engine', exits, hrun, hstep, ?_⟩
      have heq : exits = [⟨7, .meanReached, 101⟩] := Option.some.inj hexits
      rw [heq]
      exact List.mem_singleton_self _

/-- One close of the sample trade for the strategy. -/
def sampleExitActors (_ : Nat) : Actor :=
  .closePosition { sampleTrader true with exchange := .gmoFx } 7 .strategyMeanReached

/-- A run in which the exit is executed. -/
def sampleExitRun : Run Unit :=
  .play anyExchange ⟨sampleExecutedDb, (), 0⟩ sampleExitActors [.commit 0, .price 0 101 102, .clock 0, .commit 0]

/-- The one attempt that the exit executor has asked for. -/
def sampleExitSight (i : Nat) : Option ExitSighting := if i = 0 then some sampleExitSighting else none

theorem sampleExitRun_executed : ExitsExecuted (fun _ => none) (fun _ => .error []) sampleSlots sampleCloseContext
    sampleExitSight sampleExitActors sampleExitRun := by
  have sighted : ∀ i s, sampleExitSight i = some s → s = sampleExitSighting := fun i s hs =>
    (Option.some.inj (Option.ite_none_right_eq_some.mp hs).2).symm
  have hbefore : Run.Before (.start (begin ⟨sampleExecutedDb, (), 0⟩ sampleExitActors)) sampleExitRun :=
    Run.Of.start_before (Run.play_of anyExchange _ _ _)
  refine ⟨fun i s hs => ?_, fun i s hs => ?_, fun i s hs _ => ?_⟩
  · rw [sighted i s hs]
    exact sampleExitSighting_sent
  · rw [sighted i s hs]
    rfl
  · rw [sighted i s hs]
    refine ⟨⟨_, hbefore, sampleExecutedDb, ?_⟩, _, hbefore, sampleExecutedDb, rfl⟩
    refine Tx.ok_bind.mpr ⟨[⟨sampleHeld.toTrade, some true⟩], sampleExecutedDb, ?_, rfl⟩
    refine Tx.ok_bind.mpr ⟨sampleExecutedDb, sampleExecutedDb, rfl, Tx.run_pure.mpr ⟨?_, rfl⟩⟩
    exact List.mergeSort_singleton _

theorem sampleExitRun_due : ∃ t r, sampleExitRun.last.thread 0 = .done (.ok (.closed t)) ∧
    sampleExitRun.world.db.trades.find? t.id = some r ∧ r.exitReason = some .strategyMeanReached ∧
      ∃ slot ∈ sampleSlots, sampleExitSighting.DueBy slot r.toTrade := by
  obtain ⟨t, ht⟩ := closedTradeOf_some (x := sampleExitRun.last.thread 0) (by decide +kernel)
  obtain ⟨-, r, hr, -, hreason, hdue⟩ :=
    strategy_exits_due (Run.play_of _ _ _ _) sampleExitRun_executed 0 sampleExitSighting t rfl ht
  exact ⟨t, r, ht, hr, hreason, hdue⟩

end AutoTrader
