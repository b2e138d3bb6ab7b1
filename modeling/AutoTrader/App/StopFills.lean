import AutoTrader.App.CryptoMonitor

/-!
# Stops that the exchange has executed

The exchange executes a protective stop by itself. The stop-fill loop reads the open trades, asks for the status of the
stop of each live one, and asks for the close of those whose stop was executed. `stop_fills_closed` says what such a
close attempt has closed.
-/

namespace AutoTrader

variable {ε : Type} {E : ExchangeModel ε} {actors : Nat → Actor} {w₀ : World ε}

/-! ## What is asked for -/

/-- A trade without an account counts as one of a paper account. -/
def isStopDetectionTarget (t : OpenTradeWithAccount) (liveForcesDryRun : Bool) : Bool :=
  let live := t.live.getD false
  let dryRun := effectiveDryRun live liveForcesDryRun
  !dryRun && t.trade.stopOrderId.isSome

/-- How the exchange answers a question for the status of a stop. -/
abbrev StopStatuses := Exchange → Pair → String → Except ApiError StopOrderStatus

namespace CloseContext

variable (ctx : CloseContext)

/-- The close of a trade whose stop order the exchange has executed. -/
def checkStopFill (status : StopStatuses) (owned : OpenTradeWithAccount) : Option Actor := do
  let stopId ← owned.trade.stopOrderId
  let _ ← ctx.apis owned.trade.exchange
  match status owned.trade.exchange owned.trade.pair stopId with
  | .ok (.executed _ _) => ctx.closeTrade owned.trade false .slHit
  | .ok .active | .ok .gone | .error _ => none

/-- The closes of all trades whose stop order was executed. -/
def detectAndCloseStopFills (status : StopStatuses) (openTrades : List OpenTradeWithAccount) : List Actor :=
  (openTrades.filter fun t => isStopDetectionTarget t ctx.liveForcesDryRun).filterMap (ctx.checkStopFill status)

end CloseContext

/-- The trade is on a live account, and its stop was executed. -/
structure StopExecuted (ctx : CloseContext) (status : StopStatuses) (owned : OpenTradeWithAccount) (t : Trade) :
    Prop where
  live : owned.live = some true
  notForced : ctx.liveForcesDryRun = false
  executed : ∃ stopId, t.stopOrderId = some stopId ∧
    ∃ price commission, status t.exchange t.pair stopId = .ok (.executed price commission)

theorem StopExecuted.of_terms {ctx : CloseContext} {status : StopStatuses} {owned : OpenTradeWithAccount} {t u : Trade}
    (h : StopExecuted ctx status owned t) (hterms : u.terms = t.terms) : StopExecuted ctx status owned u where
  live := h.live
  notForced := h.notForced
  executed := by
    rw [Trade.stopOrderId_eq hterms, Trade.exchange_eq hterms, Trade.pair_eq hterms]
    exact h.executed

namespace CloseContext

variable {ctx : CloseContext} {status : StopStatuses}

theorem isStopDetectionTarget_iff {t : OpenTradeWithAccount} {liveForcesDryRun : Bool} :
    isStopDetectionTarget t liveForcesDryRun = true ↔
      t.live = some true ∧ liveForcesDryRun = false ∧ t.trade.stopOrderId.isSome := by
  obtain ⟨trade, live⟩ := t
  cases liveForcesDryRun <;> rcases live with - | (- | -) <;> simp [isStopDetectionTarget, effectiveDryRun]

/-- The loop asks for a close iff it is that of a trade it has read, whose stop was executed. -/
theorem mem_detectAndCloseStopFills {openTrades : List OpenTradeWithAccount} {a : Actor} :
    a ∈ ctx.detectAndCloseStopFills status openTrades ↔ ∃ owned ∈ openTrades,
      StopExecuted ctx status owned owned.trade ∧ (ctx.apis owned.trade.exchange).isSome ∧
        ctx.closeTrade owned.trade false .slHit = some a := by
  unfold detectAndCloseStopFills
  rw [List.mem_filterMap]
  refine exists_congr fun owned => ?_
  rw [List.mem_filter, isStopDetectionTarget_iff, and_assoc]
  refine and_congr_right fun _ => ?_
  unfold checkStopFill
  simp only [Option.bind_eq_bind, Option.bind_eq_some_iff]
  constructor
  · rintro ⟨⟨hlive, hforced, -⟩, stopId, hstop, api, hapi, hclose⟩
    split at hclose
    · rename_i price commission hstatus
      exact ⟨⟨hlive, hforced, stopId, hstop, price, commission, hstatus⟩, by rw [hapi]; rfl, hclose⟩
    · cases hclose
    · cases hclose
    · cases hclose
  · rintro ⟨⟨hlive, hforced, stopId, hstop, price, commission, hstatus⟩, hapi, hclose⟩
    obtain ⟨api, hapi⟩ := Option.isSome_iff_exists.mp hapi
    refine ⟨⟨hlive, hforced, by rw [hstop]; rfl⟩, stopId, hstop, api, hapi, ?_⟩
    rw [hstatus]
    exact hclose

end CloseContext

/-! ## Runs -/

/-- What a round of the loop goes by. -/
structure StopRound where
  openTrades : List OpenTradeWithAccount
  status : StopStatuses

/-- Some close attempts are those that rounds of the loop have asked for, each by what it had read before. -/
structure StopFillsDetected (ctx : CloseContext) (round : Nat → Option StopRound) (actors : Nat → Actor)
    (h : Run ε) : Prop where
  asked : ∀ i s, round i = some s → actors i ∈ ctx.detectAndCloseStopFills s.status s.openTrades
  read : ∀ i s, round i = some s → h.stage actors i ≠ .idle → ∃ p : Run ε, Run.Before p h ∧ ∃ db,
    listOpenWithAccountName.run p.world.now p.world.db = .ok (s.openTrades, db)

/-- In every run of any tasks in which some close attempts are those that rounds of the loop have asked for: such an
attempt that returned has closed a trade that the round had read, on a live account and for `sl_hit`, with an attempt
that is no dry run; and the stop that the row names was executed. -/
theorem stop_fills_closed {ctx : CloseContext} {round : Nat → Option StopRound} {h : Run ε} (hv : h.Of E w₀ actors)
    (hm : StopFillsDetected ctx round actors h) (i : Nat) (s : StopRound) (t : Trade) (hs : round i = some s)
    (hclosed : h.last.thread i = .done (.ok (.closed t))) :
    ∃ owned ∈ s.openTrades, t.id = owned.trade.id ∧ ∃ r trader, h.world.db.trades.find? t.id = some r ∧
      r.status = .closed ∧ r.exitReason = some .slHit ∧ StopExecuted ctx s.status owned r.toTrade ∧
      actors i = .closePosition trader t.id .slHit ∧ trader.exchange = r.exchange ∧ trader.accountId = r.accountId ∧
      trader.dryRun = false := by
  obtain ⟨owned, ho, hexecuted, -, hclose⟩ := CloseContext.mem_detectAndCloseStopFills.mp (hm.asked i s hs)
  obtain ⟨trader, hactor, hexchange, haccount, hdry⟩ := CloseContext.closeTrade_some hclose
  obtain ⟨hid, r, hr, hstatus, hreason, hterms⟩ := hv.closed_as_read hactor (fun hstarted => by
    obtain ⟨p, hp, db, hlist⟩ := hm.read i s hs hstarted
    exact ⟨p, hp, readTerms_of_list hlist ho⟩) hclosed
  exact ⟨owned, ho, hid, r, trader, hr, hstatus, hreason, hexecuted.of_terms hterms, hid ▸ hactor,
    hexchange.trans (Trade.exchange_eq hterms).symm, haccount.trans (Trade.accountId_eq hterms).symm, hdry⟩

/-! ## A run -/

/-- A context with a live exchange. -/
def sampleLiveContext : CloseContext where
  apis _ := some ⟨false⟩
  positionSizer := (sampleTrader false).positionSizer
  liquidationLevels _ := some 1
  liveForcesDryRun := false

/-- The stop of `sampleTrade` was executed. -/
def sampleStopRound : StopRound := ⟨[⟨sampleTrade.toTrade, some true⟩], fun _ _ _ => .ok (.executed 98 1)⟩

/-- The one attempt that the loop has asked for. -/
def sampleStopRounds (i : Nat) : Option StopRound := if i = 0 then some sampleStopRound else none

/-- One close of the sample trade for its stop. -/
def sampleStopFillActors (_ : Nat) : Actor := .closePosition (sampleTrader false) 7 .slHit

/-- A run in which the stop order is found executed. -/
def sampleStopFillRun : Run Unit :=
  .play anyExchange ⟨sampleOpenDb, (), 0⟩ sampleStopFillActors
    [.commit 0, .reply 0 (.sfd (.ok 0)), .reply 0 (.stopStatus (.ok (.executed 98 1))), .clock 0, .commit 0]

theorem sampleStopFillRun_detected :
    StopFillsDetected sampleLiveContext sampleStopRounds sampleStopFillActors sampleStopFillRun := by
  have round_eq : ∀ i s, sampleStopRounds i = some s → s = sampleStopRound := fun i s hs =>
    (Option.some.inj (Option.ite_none_right_eq_some.mp hs).2).symm
  refine ⟨fun i s hs => ?_, fun i s hs _ => ?_⟩
  · rw [round_eq i s hs]
    exact CloseContext.mem_detectAndCloseStopFills.mpr
      ⟨_, List.mem_singleton_self _, ⟨rfl, rfl, "stop", rfl, 98, 1, rfl⟩, rfl, rfl⟩
  · rw [round_eq i s hs]
    refine ⟨_, Run.Of.start_before (Run.play_of anyExchange _ _ _), sampleOpenDb, ?_⟩
    refine Tx.ok_bind.mpr ⟨sampleOpenDb, sampleOpenDb, rfl, Tx.run_pure.mpr ⟨?_, rfl⟩⟩
    exact List.mergeSort_singleton _

theorem sampleStopFillRun_closed : ∃ t r, sampleStopFillRun.last.thread 0 = .done (.ok (.closed t)) ∧
    sampleStopFillRun.world.db.trades.find? t.id = some r ∧ r.exitReason = some .slHit ∧
      ∃ owned ∈ sampleStopRound.openTrades, StopExecuted sampleLiveContext sampleStopRound.status owned r.toTrade := by
  obtain ⟨t, ht⟩ := closedTradeOf_some (x := sampleStopFillRun.last.thread 0) (by decide +kernel)
  obtain ⟨owned, ho, -, r, -, hr, -, hreason, hexecuted, -⟩ :=
    stop_fills_closed (Run.play_of _ _ _ _) sampleStopFillRun_detected 0 sampleStopRound t rfl ht
  exact ⟨t, r, ht, hr, hreason, owned, ho, hexecuted⟩

end AutoTrader
