import AutoTrader.Executor.Runs

/-!
# What the exchange charges

A task keeps what it was told to pay until it persists a trade: the commission of the last executions it
was answered, and, for a close, the SFD. The protocol `costing` follows the answers, and `Actor.costing`
says that what a task writes into the fees of a trade is exactly that: an open the commission
(`execute_costing`), a close what the trade was charged before, the commission and the SFD
(`closePosition_costing`).
-/

namespace AutoTrader

open Lib (History Prog Protocol)
open Lib.Prog (Meets MeetsE Only Only.bind)

variable {ε : Type} {E : ExchangeModel ε} {actors : Nat → Actor} {w₀ : World ε}

/-! ## The protocol -/

/-- The commission of a number of executions. -/
def totalCommission (execs : List Execution) : Decimal := (execs.map Execution.commission).sum

/-- What a task has been told to pay. -/
structure Costs where
  /-- The trade a close attempt has read. -/
  held : Option Trade
  commission : Decimal
  sfd : Decimal

/-- Nothing yet. -/
def Costs.none : Costs := ⟨.none, 0, 0⟩

/-- The commission of a fill. -/
def Costs.paid (p : Costs) (commission : Decimal) : Costs := { p with commission }

/-- What each write must have recorded of the costs. -/
def costing : Protocol Calls Costs where
  allowed
    | p, .db (.persistOpenTrade _ trade _) => trade.fees = p.commission
    | p, .db (.persistClosedTrade _ closed _ _ _ _ _) =>
      ∃ t, p.held = some t ∧ closed.id = t.id ∧ closed.fees = t.fees + p.commission + p.sfd
    | _, _ => True
  next
    | _, .db (.acquireCloseLock _ _), .ok (some lock) => ⟨some lock.trade, 0, 0⟩
    | p, .api (.fetchCloseSfd _), .ok sfd => { p with sfd }
    | p, .api (.getExecutions _ _), .ok execs => p.paid (totalCommission execs)
    | p, .api (.stopOrderStatus _ _), .ok (.executed _ commission) => p.paid commission
    | p, _, _ => p

theorem aggregateExecutions_fee {execs : List Execution} {fill : Decimal × Decimal × Decimal}
    (h : aggregateExecutions execs = .ok fill) : fill.2.2 = totalCommission execs :=
  (aggregateExecutions_totals h).2

/-- A call that does not tell of costs. -/
def Call.free : Call → Prop
  | .db (.persistOpenTrade _ _ _) | .db (.persistClosedTrade _ _ _ _ _ _ _) | .db (.acquireCloseLock _ _)
  | .api (.fetchCloseSfd _) | .api (.getExecutions _ _) | .api (.stopOrderStatus _ _) => False
  | _ => True

theorem costing_free (p : Costs) (c : Call) (hc : c.free) : costing.allowed p c ∧ ∀ r, costing.next p c r = p := by
  cases c with
  | db q => cases q <;> first | exact hc.elim | exact ⟨trivial, fun _ => rfl⟩
  | api c => cases c <;> first | exact hc.elim | exact ⟨trivial, fun _ => rfl⟩
  | _ => exact ⟨trivial, fun _ => rfl⟩

theorem free_utcNow : Only Call.free utcNow := Only.perform (I := Calls) trivial

theorem free_newUuid : Only Call.free newUuid := Only.perform (I := Calls) trivial

namespace Trader

variable (t : Trader) {α : Type}

theorem costing_of_free {p : Costs} {x : Exec α} (hx : Only Call.free x.run) :
    MeetsE costing p x (fun q _ => q = p) fun _ _ => True := by
  refine Meets.mono (fun q r hr => ?_) (hx.meets (costing_free p))
  cases r with
  | ok a => exact hr
  | error e => trivial

/-- A part that makes no query may be told anything. -/
theorem costing_of_quiet {p : Costs} {x : Prog Calls α} (hx : Only Call.quiet x) :
    Meets costing p x fun _ _ => True := by
  refine hx.invariant (A := costing) (J := fun _ => True) (fun q c _ hc => ⟨?_, fun _ => trivial⟩) trivial
  cases c <;> first | exact hc.elim | trivial

/-! ## Fills -/

theorem pollExecutionsLoop_costing (orderId : String) (pair : Pair) (p : Costs) :
    ∀ (n : Nat) (q : Costs), (∃ commission, q = p.paid commission) →
      MeetsE costing q (pollExecutionsLoop orderId pair n) (fun q fill => q = p.paid fill.2.2)
        fun q _ => ∃ commission, q = p.paid commission := by
  intro n
  induction n with
  | zero => exact fun q hq => MeetsE.throw hq
  | succ n ih =>
    rintro q ⟨commission, rfl⟩
    refine MeetsE.bind (meets_apiOrThrow trivial (fun execs => ?_) fun e => ⟨commission, rfl⟩)
    have hnext : ∃ c, (p.paid commission).paid (totalCommission execs) = p.paid c := ⟨_, rfl⟩
    split
    · exact ih _ hnext
    · split
      · rename_i fill hfill
        refine MeetsE.pure ?_
        rw [aggregateExecutions_fee hfill]
        rfl
      · exact ih _ hnext

theorem pollExecutions_costing (orderId : String) (pair : Pair) (p : Costs) :
    MeetsE costing p (pollExecutions orderId pair) (fun q fill => q = p.paid fill.2.2)
      fun q _ => ∃ commission, q = p.paid commission :=
  MeetsE.bindLift ⟨trivial, fun n => pollExecutionsLoop_costing orderId pair p n _ ⟨p.commission, rfl⟩⟩

/-- A part that fails after some calls more. -/
theorem costing_failed {β : Type} {p : Costs} {x : Prog Calls α} {f : α → Error} {Q : Costs → β → Prop}
    (hx : Only Call.quiet x) :
    MeetsE costing p ((liftM x : Exec α) >>= fun a => (throw (f a) : Exec β)) Q fun _ _ => True :=
  MeetsE.bindLift ((costing_of_quiet hx).mono fun _ _ _ => MeetsE.throw trivial)

theorem finalizeReconciledFill_costing (pair : Pair) (orderId : String) (execs : List Execution) (p : Costs) :
    MeetsE costing (p.paid (totalCommission execs)) (finalizeReconciledFill pair orderId execs)
      (fun q fill => q = p.paid fill.2.2) fun _ _ => True := by
  simp only [finalizeReconciledFill]
  split
  · rename_i fill hfill
    refine MeetsE.pure ?_
    rw [aggregateExecutions_fee hfill]
  · exact costing_failed (quiet_cleanupUnfilledOrder _ _ _)

/-- The price and the size of the order itself come without a commission, and no executions were known. -/
theorem reconcileFromChildOrder_costing (pair : Pair) (orderId : String) (pollErr : Error) (order : ChildOrder)
    (p : Costs) : MeetsE costing (p.paid 0) (reconcileFromChildOrder pair orderId pollErr order)
      (fun q fill => q = p.paid fill.2.2) fun _ _ => True := by
  simp only [reconcileFromChildOrder]
  split
  · have fallback : ∀ q : Costs, q = p.paid 0 → MeetsE costing q
        (if (decide (0 < order.averagePrice) && decide (0 < order.executedSize)) = true then
          pure (order.averagePrice, order.executedSize, (0 : Decimal))
        else throw [Piece.lit "invalid order \"", Piece.arg orderId,
          Piece.lit ("\": state=Completed but no execution data available; " ++
            "orphan — manual reconciliation required")] : Exec (Decimal × Decimal × Decimal))
              (fun q fill => q = p.paid fill.2.2) fun _ _ => True := by
      intro q hq
      split
      · exact MeetsE.pure hq
      · exact MeetsE.throw trivial
    refine meets_api trivial fun r => ?_
    cases r with
    | error e => exact fallback _ rfl
    | ok execs =>
      dsimp only
      split
      · rename_i hempty
        refine fallback _ ?_
        rw [List.isEmpty_iff.mp hempty]
        rfl
      · split
        · rename_i fill hfill
          refine MeetsE.pure ?_
          rw [aggregateExecutions_fee hfill]
          rfl
        · exact MeetsE.throw trivial
  · exact costing_failed (quiet_cleanupUnfilledOrder _ _ _)
  · exact MeetsE.throw trivial

theorem reconcileUnpolledOpen_costing (signal : Signal) (orderId : String) (pollErr : Error) (p : Costs) :
    MeetsE costing p (reconcileUnpolledOpen signal orderId pollErr) (fun q fill => q = p.paid fill.2.2)
      fun _ _ => True := by
  refine meets_api trivial fun r => ?_
  cases r with
  | error e => exact costing_failed (quiet_cleanupUnfilledOrder _ _ _)
  | ok execs =>
    dsimp only
    split
    · rename_i hempty
      rw [List.isEmpty_iff.mp hempty]
      refine meets_api trivial fun r => ?_
      rcases r with e | (_ | ⟨order, orders⟩)
      · exact costing_failed (quiet_cleanupUnfilledOrder _ _ _)
      · exact costing_failed (quiet_cleanupUnfilledOrder _ _ _)
      · exact reconcileFromChildOrder_costing _ _ _ _ p
    · exact finalizeReconciledFill_costing _ _ _ p

theorem commissionEstimate_eq (action : CommissionAction) (exchange : Exchange) (price qty : Decimal) :
    commissionEstimate action exchange price qty = 0 := by
  cases exchange <;> rfl

theorem sfdEstimate_eq (exchange : Exchange) (price qty : Decimal) : sfdEstimate exchange price qty = 0 := by
  cases exchange <;> rfl

theorem paid_zero {p : Costs} (hp : p.commission = 0) : p = p.paid 0 := by
  obtain ⟨held, commission, sfd⟩ := p
  exact congrArg (fun c => Costs.mk held c sfd) hp

theorem fillOpen_costing (signal : Signal) (quantity : Decimal) {p : Costs} (hp : p.commission = 0) :
    MeetsE costing p (t.fillOpen signal quantity) (fun q fill => q = p.paid fill.2.2) fun _ _ => True := by
  simp only [fillOpen]
  split
  · refine MeetsE.bind ((costing_of_free (t.only_latestBidAsk trivial)).mono (fun q tick hq => ?_) fun _ _ _ => trivial)
    refine MeetsE.pure ?_
    rw [commissionEstimate_eq, hq]
    exact paid_zero hp
  · refine MeetsE.bind (meets_apiOrThrow trivial (fun orderId => ?_) fun _ => trivial)
    refine MeetsE.bind (MeetsE.attempt ((pollExecutions_costing orderId signal.pair p).mono
      (fun q fill hq => MeetsE.pure hq) fun q pollErr hq => ?_))
    obtain ⟨commission, rfl⟩ := hq
    exact reconcileUnpolledOpen_costing signal orderId pollErr (p.paid commission)

/-- The guard pays for a close that the stop has executed already, and for nothing else. -/
theorem stopGuardBeforeClose_costing (trade : Trade) (p : Costs) :
    MeetsE costing p (stopGuardBeforeClose trade)
      (fun q fill => match fill with
        | some fill => q = p.paid fill.2
        | none => q = p) fun _ _ => True := by
  simp only [stopGuardBeforeClose]
  split
  · refine meets_api trivial fun r => ?_
    rcases r with e | (_ | ⟨price, commission⟩ | _)
    · exact MeetsE.throw trivial
    · refine meets_api trivial fun r => ?_
      cases r with
      | ok _ => exact MeetsE.pure rfl
      | error e =>
        refine meets_api trivial fun r => ?_
        rcases r with e | (_ | ⟨price, commission⟩ | _)
        · exact MeetsE.throw trivial
        · exact MeetsE.throw trivial
        · exact MeetsE.pure rfl
        · exact MeetsE.pure rfl
    · exact MeetsE.pure rfl
    · exact MeetsE.pure rfl
  · exact MeetsE.pure rfl

theorem fillCloseLive_costing (trade : Trade) (size : Decimal) (p : Costs) :
    MeetsE costing p (t.fillCloseLive trade size) (fun q fill => q = p.paid fill.2) fun _ _ => True := by
  refine MeetsE.bind ((stopGuardBeforeClose_costing trade p).mono (fun q fill hq => ?_) fun _ _ _ => trivial)
  cases fill with
  | some fill => exact MeetsE.pure hq
  | none =>
    have hq : q = p := hq
    rw [hq]
    refine MeetsE.bind ?_
    simp only [ensureClosePositionIdPresent]
    split
    · exact MeetsE.throw trivial
    refine MeetsE.pure (MeetsE.bind (meets_apiOrThrow trivial (fun acceptanceId => ?_) fun _ => trivial))
    exact MeetsE.bind ((pollExecutions_costing acceptanceId trade.pair p).mono (fun _ _ hq => MeetsE.pure hq)
      fun _ _ _ => trivial)

theorem fillClose_costing (trade : Trade) {p : Costs} (hp : p.commission = 0) :
    MeetsE costing p (t.fillClose trade) (fun q fill => q = p.paid fill.2) fun _ _ => True := by
  simp only [fillClose]
  split
  · refine MeetsE.bind ((costing_of_free (t.only_latestBidAsk trivial)).mono (fun q tick hq => ?_) fun _ _ _ => trivial)
    refine MeetsE.pure ?_
    rw [commissionEstimate_eq, hq]
    exact paid_zero hp
  · exact t.fillCloseLive_costing trade _ p

theorem fillCloseWithStaleRecovery_costing (trade : Trade) {p : Costs} (hp : p.commission = 0) :
    MeetsE costing p (t.fillCloseWithStaleRecovery trade) (fun q fill => q = p.paid fill.2.1) fun _ _ => True := by
  refine MeetsE.bind ((costing_of_free (only_sumExchangePositionSize trivial)).mono (fun q r hq => ?_)
    fun _ _ _ => trivial)
  rw [hq]
  dsimp only
  split
  · refine MeetsE.bind ((costing_of_free (t.only_resolveStaleExitPrice trivial)).mono (fun q price hq => ?_)
      fun _ _ _ => trivial)
    exact MeetsE.pure (hq.trans (paid_zero hp))
  split
  · exact MeetsE.bind ((t.fillClose_costing trade hp).mono (fun _ _ hq => MeetsE.pure hq) fun _ _ _ => trivial)
  split
  · have hsize : MeetsE costing p (t.fillCloseSize trade r.1) (fun q fill => q = p.paid fill.2) fun _ _ => True := by
      simp only [fillCloseSize]
      split
      · exact t.fillClose_costing trade hp
      · exact t.fillCloseLive_costing trade r.1 p
    exact MeetsE.bind (hsize.mono (fun _ _ hq => MeetsE.pure hq) fun _ _ _ => trivial)
  · exact MeetsE.throw trivial

theorem closeAndReleaseLockOnError_costing (uuid : Uuid) (trade : Trade) (stale : Bool) {p : Costs}
    (hp : p.commission = 0) :
    MeetsE costing p (t.closeAndReleaseLockOnError uuid trade stale) (fun q fill => q = p.paid fill.2.1)
      fun _ _ => True := by
  have hfill : MeetsE costing p
      (if (!t.dryRun && stale) = true then t.fillCloseWithStaleRecovery trade
        else do
          let fill ← t.fillClose trade
          return (fill.1, fill.2, false)) (fun q fill => q = p.paid fill.2.1) fun _ _ => True := by
    split
    · exact t.fillCloseWithStaleRecovery_costing trade hp
    · exact MeetsE.bind ((t.fillClose_costing trade hp).mono (fun _ _ hq => MeetsE.pure hq) fun _ _ _ => trivial)
  refine MeetsE.bind (MeetsE.attempt (hfill.mono (fun q fill hq => MeetsE.pure hq) fun q e _ => ?_))
  exact MeetsE.bind (MeetsE.attempt (meets_query trivial (fun _ => MeetsE.throw trivial) fun _ => MeetsE.throw trivial))

/-! ## Tasks -/

/-- An open persists its trade with the commission it was told. -/
theorem execute_costing (signal : Signal) :
    MeetsE costing .none (t.execute signal) (fun _ _ => True) fun _ _ => True := by
  have hentry : Only Call.free (t.prepareEntry signal).run := t.only_prepareEntry trivial trivial trivial
  refine MeetsE.bind ((costing_of_free hentry).mono (fun q entry hq => ?_) fun _ _ _ => trivial)
  subst hq
  refine MeetsE.bind ((t.fillOpen_costing signal entry.2.1 rfl).mono (fun q fill hq => ?_) fun _ _ _ => trivial)
  subst hq
  refine MeetsE.bindLift_of_only free_utcNow (costing_free _) fun entryAt => ?_
  refine MeetsE.bindLift_of_only (t.only_resolveExchangePositionId trivial) (costing_free _) fun pid => ?_
  refine MeetsE.bindLift_of_only (t.only_placeProtectiveStopOrder fun _ _ => trivial) (costing_free _) fun stop => ?_
  refine MeetsE.bindLift_of_only free_newUuid (costing_free _) fun id => ?_
  exact MeetsE.bind (meets_query rfl (fun _ => MeetsE.pure trivial) fun _ => trivial)

/-- A close persists its trade with the fees it read, the commission and the SFD it was told. -/
theorem closePosition_costing (uuid : Uuid) (exitReason : ExitReason) :
    MeetsE costing .none (t.closePosition uuid exitReason) (fun _ _ => True) fun _ _ => True := by
  refine MeetsE.bind (MeetsE.bind (meets_query trivial (fun lock => ?_) fun _ => trivial))
  cases lock with
  | none => exact MeetsE.throw trivial
  | some lock =>
    have hsfd : Meets costing ⟨some lock.trade, 0, 0⟩ (t.liveSfdSnapshot lock.trade)
        fun q sfd => q = ⟨some lock.trade, 0, sfd.getD 0⟩ := by
      simp only [liveSfdSnapshot]
      split
      · exact rfl
      · refine meets_ask trivial fun r => ?_
        cases r <;> exact rfl
    refine MeetsE.pure (MeetsE.bindLift (hsfd.mono fun q sfd hq => ?_))
    subst hq
    refine MeetsE.bind ((t.closeAndReleaseLockOnError_costing uuid lock.trade _ rfl).mono (fun q fill hq => ?_)
      fun _ _ _ => trivial)
    subst hq
    refine MeetsE.bindLift_of_only free_utcNow (costing_free _) fun exitAt => ?_
    refine MeetsE.bind (meets_query ⟨lock.trade, rfl, rfl, ?_⟩ (fun _ => MeetsE.pure trivial) fun _ => trivial)
    rw [sfdEstimate_eq]
    rfl

end Trader

/-- Every task writes the costs it was told. -/
theorem Actor.costing : ∀ a : Actor, Meets costing .none a.prog.run fun _ _ => True
  | .execute t signal => MeetsE.run (MeetsE.map (R := fun _ _ => True) (t.execute_costing signal))
  | .closePosition t uuid exitReason =>
    MeetsE.run (MeetsE.map (R := fun _ _ => True) (t.closePosition_costing uuid exitReason))
  | .closeTradeReconciled tradeId exitPrice pnlAmount exitReason => by
    refine MeetsE.run (MeetsE.map (MeetsE.bindLift_of_only free_utcNow (costing_free _) fun exitAt => ?_))
    refine MeetsE.bind (meets_query trivial (fun o => ?_) fun _ => trivial)
    cases o with
    | none => exact MeetsE.throw trivial
    | some trade => exact meets_query trivial (fun _ => trivial) fun _ => trivial
  | .applyOvernightFee _ _ _ | .applySfdFee _ _ _ _ | .applySwapFee _ _ _ _ | .addFees _ _ | .releaseCloseLock _ =>
    MeetsE.run (MeetsE.map (meets_query trivial (fun _ => trivial) fun _ => trivial))

namespace Run

/-- No task has been told anything. -/
def untold (_ : Nat) : Costs := .none

/-- What each task has been told to pay. -/
def costs (h : Run ε) (i : Nat) : Costs := h.phases costing untold i

theorem Of.costing {h : Run ε} (hv : h.Of E w₀ actors) {i : Nat} {q : Query} {r : Except Error q.Ok}
    {c : Lib.Config Calls (World ε) (Except Error Outcome)}
    (hs : Lib.Step (worldSys E) h.last (.call i (.db q) r) c) : AutoTrader.costing.allowed (h.costs i) (.db q) :=
  History.Valid.allowed (actors i).costing hv hs

end Run

end AutoTrader
