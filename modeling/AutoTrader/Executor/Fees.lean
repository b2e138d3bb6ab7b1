import AutoTrader.Executor.CloseLock
import AutoTrader.Executor.Costs

/-!
# The fees of a trade that is closed

A close attempt reads the fees of the trade when it takes the lock, and overwrites them with what it read
plus its own costs when it persists the close. A fee that is applied in between is lost. This needs a lock
that was taken over and given back: only then is the trade open while an attempt still goes by what it read
(`sampleLostFee_lost`). `fees_kept_iff` says that the fees of the closed trade are what they should be, in
every state of a run, iff nothing was charged between the lock and the close of any attempt that closed it.
-/

namespace AutoTrader

open Lib (Config History Label Step)
open Lib.Table (find?_set find?_insert insert_fresh)

variable {ε : Type} {E : ExchangeModel ε} {actors : Nat → Actor} {w₀ : World ε} {id : Uuid}

/-! ## What a query does to the fees of a trade -/

/-- What a query that committed charges the trade. -/
def Query.charged (id : Uuid) : (q : Query) → q.Ok → Decimal
  | .applyOvernightFee _ tradeId fee, some _ | .applySfdFee _ tradeId fee _, some _
  | .applySwapFee _ tradeId fee _, some _ => if tradeId = id then fee else 0
  | .addFees tradeId feeDelta, _ => if tradeId = id then feeDelta else 0
  | _, _ => 0

/-- The fees of the trade after a query that committed. -/
def Query.feesAfter (id : Uuid) (fees : Decimal) : (q : Query) → q.Ok → Decimal
  | .persistClosedTrade _ closed _ _ _ _ _, _ => if closed.id = id then closed.fees else fees
  | q, a => fees + q.charged id a

section

variable {now : DateTime} {db db' : Db} {r : TradeRow}

theorem fees_set {u v : TradeRow} (hu : db.trades.find? v.id = some u) (hr : db.trades.find? id = some r) :
    ∃ r', (db.trades.set v).find? id = some r' ∧
      r'.fees = if v.id = id then r.fees + (v.fees - u.fees) else r.fees := by
  rw [find?_set hu]
  by_cases hid : id = v.id
  · subst hid
    cases hu.symm.trans hr
    refine ⟨v, if_pos rfl, ?_⟩
    rw [if_pos rfl]
    ring
  · exact ⟨r, by rw [if_neg hid, hr], by rw [if_neg fun h => hid h.symm]⟩

theorem applyFeeInner_fees {accountId tradeId : Uuid} {fee : Decimal} {kind : EventType}
    {occurredAt : Option DateTime} {o : Option Decimal}
    (h : (applyFeeInner accountId tradeId fee kind occurredAt).run now db = .ok (o, db'))
    (hr : db.trades.find? id = some r) :
    ∃ r', db'.trades.find? id = some r' ∧ r'.fees = r.fees + if o.isSome ∧ tradeId = id then fee else 0 := by
  rcases applyFeeInner_ok h with ⟨rfl, rfl⟩ | ⟨ho, u, a, hu, -, -, -, rfl⟩
  · exact ⟨r, hr, by simp⟩
  · obtain rfl := Db.trade_id hu
    obtain ⟨r', hr', hfees⟩ := fees_set (v := u.charge fee) hu hr
    refine ⟨r', hr', hfees.trans ?_⟩
    show (if u.id = id then r.fees + (u.fees + fee - u.fees) else r.fees) = _
    simp only [ho, true_and]
    split <;> ring

theorem Query.fees_of_ok {q : Query} {a : q.Ok} (h : q.tx.run now db = .ok (a, db'))
    (hr : db.trades.find? id = some r) :
    ∃ r', db'.trades.find? id = some r' ∧ r'.fees = q.feesAfter id r.fees a := by
  have hw := Query.wrote_of_ok h
  cases q with
  | getAccount _ | listActive =>
    have hw : db' = db := hw
    exact ⟨r, by rw [hw, hr], (add_zero _).symm⟩
  | getOpenTradesByAccount _ | selectUnsettled _ => exact ⟨r, by rw [hw.1, hr], (add_zero _).symm⟩
  | acquireCloseLock _ _ =>
    rcases hw with ⟨u, hu, -, -, rfl⟩ | ⟨-, rfl⟩
    · obtain rfl := Db.trade_id hu
      obtain ⟨r', hr', hfees⟩ := fees_set (v := u.startClosing now) hu hr
      exact ⟨r', hr', by simpa [TradeRow.startClosing, feesAfter, charged] using hfees⟩
    · exact ⟨r, hr, (add_zero _).symm⟩
  | releaseCloseLock _ =>
    rcases hw with ⟨u, hu, -, rfl⟩ | ⟨-, rfl⟩
    · obtain rfl := Db.trade_id hu
      obtain ⟨r', hr', hfees⟩ := fees_set (v := u.reopen) hu hr
      exact ⟨r', hr', by simpa [TradeRow.reopen, feesAfter, charged] using hfees⟩
    · exact ⟨r, hr, (add_zero _).symm⟩
  | persistOpenTrade _ trade _ =>
    obtain ⟨trades, b, ns, hi, -, -, rfl⟩ := hw
    have hne : id ≠ trade.id := by
      rintro rfl
      exact absurd ((insert_fresh hi).symm.trans hr) nofun
    exact ⟨r, (find?_insert hi id).trans (by rw [if_neg hne, hr]), (add_zero _).symm⟩
  | persistClosedTrade _ closed _ _ _ _ _ =>
    obtain ⟨u, b, ns, hu, -, -, rfl⟩ := hw
    have hid := Db.trade_id hu
    obtain ⟨r', hr', hfees⟩ := fees_set (v := u.settle _ _ _ _ closed.fees) (by rw [← hid] at hu; exact hu) hr
    refine ⟨r', hr', hfees.trans ?_⟩
    show (if u.id = id then r.fees + (closed.fees - u.fees) else r.fees) =
      if closed.id = id then closed.fees else r.fees
    rw [hid]
    split
    · rename_i heq
      rw [heq, hr] at hu
      cases hu
      ring
    · rfl
  | closeTradeReconciled tradeId _ _ _ _ _ _ =>
    obtain ⟨u, b, hu, -, -, rfl⟩ := hw
    rw [← Db.trade_id hu] at hu
    obtain ⟨r', hr', hfees⟩ := fees_set (v := u.settle _ _ _ _ u.fees) hu hr
    exact ⟨r', hr', by simpa [TradeRow.settle, feesAfter, charged] using hfees⟩
  | addFees tradeId fee =>
    obtain ⟨u, hu, rfl⟩ := hw
    obtain rfl := Db.trade_id hu
    obtain ⟨r', hr', hfees⟩ := fees_set (v := u.charge fee) hu hr
    refine ⟨r', hr', hfees.trans ?_⟩
    show (if u.id = id then r.fees + (u.fees + fee - u.fees) else r.fees) = r.fees + if u.id = id then fee else 0
    split <;> ring
  | applyOvernightFee _ tradeId fee | applySfdFee _ tradeId fee _ | applySwapFee _ tradeId fee _ =>
    obtain ⟨r', hr', hfees⟩ := applyFeeInner_fees h hr
    refine ⟨r', hr', hfees.trans ?_⟩
    cases a <;> simp [feesAfter, charged]

end

/-! ## Runs -/

/-- What a step charges the trade. -/
def chargedBy (id : Uuid) : Label Calls Move → Decimal
  | .call _ (.db q) (.ok a) => q.charged id a
  | _ => 0

namespace Run

/-- The costs of the close attempt that closes the trade in this step. -/
def closingCost (id : Uuid) (h : Run ε) : Label Calls Move → Decimal
  | .call i (.db (.persistClosedTrade _ closed _ _ _ _ _)) (.ok _) =>
    if closed.id = id then (h.costs i).commission + (h.costs i).sfd else 0
  | _ => 0

/-- What the fees of the trade should be: those it was opened with, all that were charged, and the costs of
the attempt that closed it. -/
def feesDue (id : Uuid) (openFees : Decimal) : Run ε → Decimal
  | .start _ => openFees
  | .step h l _ => feesDue id openFees h + chargedBy id l + closingCost id h l

/-- What the trade was charged since each attempt took the lock. -/
def chargedSince (id : Uuid) (h : Run ε) : Nat → Decimal :=
  h.ghost (fun f _ l _ => match acquisition id l with
    | some (i, _) => Function.update f i 0
    | none => fun j => f j + chargedBy id l) fun _ => 0

/-- A closed trade has the fees it should have. -/
def FeesKept (id : Uuid) (openFees : Decimal) (h : Run ε) : Prop :=
  ∀ r ∈ h.world.db.trades.find? id, r.status = .closed → r.fees = h.feesDue id openFees

instance (openFees : Decimal) (h : Run ε) : Decidable (h.FeesKept id openFees) :=
  inferInstanceAs (Decidable (∀ r ∈ h.world.db.trades.find? id, _))

end Run

/-- The trade was charged nothing between the lock and the close of the attempt that closes it. -/
def UnchargedSinceLock (id : Uuid) (h : Run ε) (l : Label Calls Move)
    (_ : Config Calls (World ε) (Except Error Outcome)) : Prop :=
  match l with
  | .call i (.db (.persistClosedTrade _ closed _ _ _ _ _)) (.ok _) => closed.id = id → h.chargedSince id i = 0
  | _ => True

instance (h : Run ε) (l : Label Calls Move) (c : Config Calls (World ε) (Except Error Outcome)) :
    Decidable (UnchargedSinceLock id h l c) := by
  induction l using Lib.Label.casesOn with
  | move m => exact instDecidableTrue
  | call i q r =>
    induction q using Call.casesOn with
    | db q =>
      induction q using Query.casesOn <;> induction r using Except.casesOn <;>
        dsimp only [UnchargedSinceLock] <;> infer_instance
    | _ => exact instDecidableTrue

/-- What is kept of the trade until it is closed. -/
structure Chargeable (id : Uuid) (openFees : Decimal) (h : Run ε) : Prop where
  row : ∃ r, h.world.db.trades.find? id = some r
  due : ∀ r ∈ h.world.db.trades.find? id, r.status ≠ .closed → r.fees = h.feesDue id openFees
  held : ∀ r ∈ h.world.db.trades.find? id, r.status ≠ .closed → ∀ i, ∀ t ∈ (h.costs i).held, t.id = id →
    r.fees = t.fees + h.chargedSince id i

section

variable {h : Run ε} {l : Label Calls Move} {c : Config Calls (World ε) (Except Error Outcome)} {openFees : Decimal}

/-- A step either commits a query or has nothing to do with the fees of a trade. -/
theorem Run.fee_cases (id : Uuid) (hs : Step (worldSys E) h.last l c) :
    (∃ i q a, l = .call i (.db q) (.ok a) ∧ q.tx.run h.world.now h.world.db = .ok (a, c.world.db)) ∨
      (c.world.db.trades = h.world.db.trades ∧ chargedBy id l = 0 ∧ h.closingCost id l = 0 ∧
        acquisition id l = none ∧ UnchargedSinceLock id h l c ∧
        ∀ j, (Run.costs (.step h l c) j).held = (h.costs j).held) := by
  have other : ∀ {i j : Nat} {q : Calls.Call} {r : Calls.Ret q},
      (costing.next (h.costs i) q r).held = (h.costs i).held →
        (Run.costs (.step h (.call i q r) c) j).held = (h.costs j).held := by
    intro i j q r hq
    simp only [costs, History.phases] at hq ⊢
    by_cases hij : j = i
    · subst hij
      rw [Function.update_self]
      exact hq
    · rw [Function.update_of_ne hij]
  cases l with
  | move m =>
    refine .inr ⟨?_, rfl, rfl, rfl, trivial, fun _ => rfl⟩
    cases m with
    | tick t => rw [hs.1.2]; rfl
    | exchange =>
      obtain ⟨⟨x, -, hw⟩, -⟩ := hs
      rw [hw]
      rfl
    | setLeverage a k => rw [hs.1]; exact setLeverage_trades a k _
  | call i q r =>
    cases q with
    | db q =>
      cases r with
      | ok a => exact .inl ⟨i, q, a, rfl, committed hs⟩
      | error e =>
        obtain ⟨⟨db, hdb, hw⟩, -⟩ := hs
        have hdb : db = h.world.db := hdb
        refine .inr ⟨by rw [hw, hdb], rfl, ?_, ?_, ?_, fun j => other ?_⟩ <;> cases q <;> first | rfl | trivial
    | api a =>
      obtain ⟨⟨x, -, hw⟩, -⟩ := hs
      refine .inr ⟨by rw [hw]; rfl, rfl, rfl, rfl, trivial, fun j => other ?_⟩
      cases a with
      | stopOrderStatus _ _ => rcases r with _ | (_ | _ | _) <;> rfl
      | _ => cases r <;> rfl
    | latestBidAsk _ _ | lastTickAge _ _ | utcNow | newUuid | pollPasses =>
      have hw : c.world = h.world := hs.1
      exact .inr ⟨by rw [hw], rfl, rfl, rfl, trivial, fun j => other rfl⟩

/-- An attempt has read the trade with this lock, or it goes by what it went by before. -/
theorem Run.held_query {i j : Nat} {q : Query} {a : q.Ok} {t : Trade}
    (hok : q.tx.run h.world.now h.world.db = .ok (a, c.world.db))
    (ht : t ∈ (Run.costs (.step h (.call i (.db q) (.ok a)) c) j).held) :
    (∃ lock r, acquisition t.id (.call i (.db q) (.ok a) : Label Calls Move) = some (i, lock) ∧ j = i ∧
      c.world.db.trades.find? t.id = some r ∧ t.fees = r.fees) ∨
      t ∈ (h.costs j).held ∧ ∀ id, chargedSince id (.step h (.call i (.db q) (.ok a)) c) j =
        h.chargedSince id j + q.charged id a := by
  have hw := Query.wrote_of_ok hok
  simp only [costs, History.phases] at ht ⊢
  simp only [chargedSince, History.ghost]
  by_cases hij : j = i
  · subst hij
    rw [Function.update_self] at ht
    cases q with
    | acquireCloseLock tradeId accountId =>
      cases a with
      | none => exact .inr ⟨ht, fun _ => rfl⟩
      | some lock =>
        have ht : some lock.trade = some t := ht
        cases ht
        rcases hw with ⟨u, hu, hl, hlock, hdb⟩ | ⟨hlock, -⟩
        · cases hlock
          obtain rfl := Db.trade_id hu
          refine .inl ⟨_, u.startClosing h.world.now, if_pos rfl, rfl, ?_, rfl⟩
          rw [hdb]
          exact (find?_set (v := u.startClosing h.world.now) hu _).trans (if_pos rfl)
        · cases hlock
    | _ => exact .inr ⟨ht, fun _ => rfl⟩
  · rw [Function.update_of_ne hij] at ht
    refine .inr ⟨ht, fun id => ?_⟩
    cases q with
    | acquireCloseLock tradeId accountId =>
      cases a with
      | none => rfl
      | some lock =>
        cases hacq : acquisition id (.call i (.db (.acquireCloseLock tradeId accountId)) (.ok (some lock)) :
            Label Calls Move) with
        | none => rfl
        | some p =>
          dsimp only
          rw [Function.update_of_ne fun h => hij (h.trans (acquisition_fst hacq))]
          exact (add_zero _).symm
    | _ => rfl

/-- A query that closes the trade. -/
theorem Query.closes_of_persist {now : DateTime} {db db' : Db} {accountId : Uuid} {closed : Trade}
    {margin pnl price : Decimal} {at' : DateTime} {reason : ExitReason} {u : Unit} {r : TradeRow}
    (hw : (Query.persistClosedTrade accountId closed margin pnl price at' reason).wrote now db u db')
    (hr : db'.trades.find? closed.id = some r) : r.status = .closed := by
  obtain ⟨v, b, ns, hv, -, -, rfl⟩ := hw
  have hset := find?_set (v := v.settle price at' pnl reason closed.fees) (w := v)
    (by rw [← Db.trade_id hv] at hv; exact hv) closed.id
  have hr : (db.trades.set (v.settle price at' pnl reason closed.fees)).find? closed.id = some r := hr
  have hid : closed.id = (v.settle price at' pnl reason closed.fees).id := (Db.trade_id hv).symm
  rw [hset, if_pos hid] at hr
  cases hr
  rfl

/-- What a query does to the fees of a trade that it does not close by a close attempt. -/
theorem Query.feesAfter_eq {i : Nat} {q : Query} {a : q.Ok} {f : Decimal}
    (hq : ∀ accountId closed margin pnl price at' reason,
      q = .persistClosedTrade accountId closed margin pnl price at' reason → closed.id ≠ id) :
    q.feesAfter id f a = f + q.charged id a ∧ h.closingCost id (.call i (.db q) (.ok a)) = 0 := by
  cases q with
  | persistClosedTrade _ closed _ _ _ _ _ =>
    have hne := hq _ closed _ _ _ _ _ rfl
    exact ⟨(if_neg hne).trans (add_zero _).symm, if_neg hne⟩
  | _ => exact ⟨rfl, rfl⟩

theorem Chargeable.step (hs : Step (worldSys E) h.last l c) (hc : Chargeable id openFees h) :
    Chargeable id openFees (.step h l c) := by
  obtain ⟨r, hr⟩ := hc.row
  rcases Run.fee_cases id hs with ⟨i, q, a, rfl, hok⟩ | ⟨htrades, hcharged, hcost, hacq, -, hheld⟩
  · obtain ⟨r', hr', hfees⟩ := Query.fees_of_ok hok hr
    obtain ⟨s, hs', hstep⟩ := Query.wrote_row (Query.wrote_of_ok hok) hr
    cases hr'.symm.trans hs'
    -- Until the trade is closed, its fees only move by what it is charged.
    have fees : r'.status ≠ .closed → r.status ≠ .closed ∧ r'.fees = r.fees + q.charged id a ∧
        h.closingCost id (.call i (.db q) (.ok a)) = 0 := fun hopen => by
      have hq : ∀ accountId closed margin pnl price at' reason,
          q = .persistClosedTrade accountId closed margin pnl price at' reason → closed.id ≠ id := by
        rintro accountId closed margin pnl price at' reason rfl rfl
        exact hopen (Query.closes_of_persist (Query.wrote_of_ok hok) hr')
      obtain ⟨hafter, hcost⟩ := Query.feesAfter_eq (h := h) (i := i) (a := a) (f := r.fees) hq
      exact ⟨fun hclosed => hopen (hstep.closed hclosed).1, hfees.trans hafter, hcost⟩
    refine ⟨⟨r', hr'⟩, fun v hv hopen => ?_, fun v hv hopen j t ht hid => ?_⟩
    · obtain rfl := Option.some.inj (hr'.symm.trans hv)
      obtain ⟨hold, hnew, hcost⟩ := fees hopen
      show r'.fees = h.feesDue id openFees + q.charged id a + h.closingCost id _
      rw [hnew, hc.due r hr hold, hcost, add_zero]
    · obtain rfl := Option.some.inj (hr'.symm.trans hv)
      obtain ⟨hold, hnew, -⟩ := fees hopen
      rcases Run.held_query hok ht with ⟨lock, u, hacq, rfl, hu, hfees⟩ | ⟨ht, hsince⟩
      · rw [hid] at hacq hu
        obtain rfl := Option.some.inj (hr'.symm.trans hu)
        have hzero : Run.chargedSince id (.step h (.call j (.db q) (.ok a)) c) j = 0 := by
          simp only [Run.chargedSince, History.ghost, hacq]
          exact Function.update_self ..
        rw [hzero, add_zero, hfees]
      · rw [hsince, hnew, hc.held r hr hold j t ht hid]
        ring
  · have htrades : (History.world (.step h l c)).db.trades = h.world.db.trades := htrades
    refine ⟨⟨r, by rw [htrades, hr]⟩, fun v hv hopen => ?_, fun v hv hopen j t ht hid => ?_⟩
    · rw [htrades] at hv
      show v.fees = h.feesDue id openFees + chargedBy id l + h.closingCost id l
      rw [hcharged, hcost, hc.due v hv hopen]
      ring
    · rw [htrades] at hv
      rw [hheld] at ht
      have hsince : Run.chargedSince id (.step h l c) j = h.chargedSince id j + chargedBy id l := by
        simp only [Run.chargedSince, History.ghost, hacq]
      rw [hsince, hcharged, add_zero]
      exact hc.held v hv hopen j t ht hid

theorem Run.Of.chargeable {r₀ : TradeRow} (hr₀ : w₀.db.trades.find? id = some r₀) {h : Run ε}
    (hv : h.Of E w₀ actors) : Chargeable id r₀.fees h := by
  refine History.Valid.invariant (P := fun _ _ _ => True) (J := fun h : Run ε => Chargeable id r₀.fees h) ?_
    (fun h l c _ _ ih hs _ => ih.step hs) hv (History.Steps.of_forall (fun _ _ _ => trivial) h)
  refine ⟨⟨r₀, hr₀⟩, fun r hr _ => ?_, fun r hr _ i t ht => by cases ht⟩
  obtain rfl := Option.some.inj (hr₀.symm.trans hr)
  rfl

/-- A step keeps the fees of the closed trade iff it closes it with nothing charged since the lock. -/
theorem Run.Of.feesKept_step (hv : h.Of E w₀ actors) (hs : Step (worldSys E) h.last l c)
    (hc : Chargeable id openFees h) (hkept : h.FeesKept id openFees) :
    Run.FeesKept id openFees (.step h l c) ↔ UnchargedSinceLock id h l c := by
  obtain ⟨r, hr⟩ := hc.row
  have due : ∀ u ∈ h.world.db.trades.find? id, u.fees = h.feesDue id openFees := fun u hu => by
    by_cases hclosed : u.status = .closed
    · exact hkept u hu hclosed
    · exact hc.due u hu hclosed
  rcases Run.fee_cases id hs with ⟨i, q, a, rfl, hok⟩ | ⟨htrades, hcharged, hcost, -, huncharged, -⟩
  · obtain ⟨r', hr', hfees⟩ := Query.fees_of_ok hok hr
    have hr' : (History.world (.step h (.call i (.db q) (.ok a)) c)).db.trades.find? id = some r' := hr'
    have hdue : Run.feesDue id openFees (.step h (.call i (.db q) (.ok a)) c) =
        r.fees + q.charged id a + h.closingCost id (.call i (.db q) (.ok a)) := by rw [due r hr]; rfl
    by_cases hq : ∀ accountId closed margin pnl price at' reason,
        q = .persistClosedTrade accountId closed margin pnl price at' reason → closed.id ≠ id
    · obtain ⟨hafter, hcost⟩ := Query.feesAfter_eq (h := h) (i := i) (a := a) (f := r.fees) hq
      refine iff_of_true (fun v hv _ => ?_) ?_
      · obtain rfl := Option.some.inj (hr'.symm.trans hv)
        rw [hdue, hcost, add_zero, hfees, hafter]
      · cases q with
        | persistClosedTrade _ closed _ _ _ _ _ => exact fun hid => absurd hid (hq _ closed _ _ _ _ _ rfl)
        | _ => trivial
    · simp only [not_forall, not_not] at hq
      obtain ⟨accountId, closed, margin, pnl, price, at', reason, rfl, rfl⟩ := hq
      have hw := Query.wrote_of_ok hok
      have hclosed : r'.status = .closed := Query.closes_of_persist hw hr'
      have hold : r.status ≠ .closed := by
        obtain ⟨v, b, ns, hv, hv', -⟩ := hw
        rwa [Option.some.inj (hr.symm.trans hv)]
      obtain ⟨t, ht, hid, hcosts⟩ := hv.costing hs
      have hheld := hc.held r hr hold i t ht hid.symm
      have hfees : r'.fees = closed.fees := hfees.trans (if_pos rfl)
      have hdue : Run.feesDue closed.id openFees (.step h (.call i (.db _) (.ok a)) c) =
          r.fees + 0 + ((h.costs i).commission + (h.costs i).sfd) :=
            hdue.trans (by rw [Run.closingCost, if_pos rfl]; rfl)
      have key : r'.fees = Run.feesDue closed.id openFees (.step h (.call i (.db _) (.ok a)) c) ↔
          h.chargedSince closed.id i = 0 := by
        rw [hdue, hfees, hcosts, hheld]
        constructor <;> intro h' <;> linarith
      simp only [UnchargedSinceLock, true_implies, ← key]
      refine ⟨fun hk => hk r' hr' hclosed, fun hk v hv _ => ?_⟩
      rwa [← Option.some.inj (hr'.symm.trans hv)]
  · refine iff_of_true (fun v hv _ => ?_) huncharged
    have htrades : (History.world (.step h l c)).db.trades = h.world.db.trades := htrades
    rw [htrades] at hv
    show v.fees = h.feesDue id openFees + chargedBy id l + h.closingCost id l
    rw [hcharged, hcost, due v hv]
    ring

/-- In every run from a trade that is not closed, the closed trade has the fees it was opened with, what it was
charged and the costs of the attempt that closed it, in every state, iff no close of it overwrites a charge. -/
theorem fees_kept_iff {r₀ : TradeRow} (hr₀ : w₀.db.trades.find? id = some r₀) (hopen : r₀.status ≠ .closed) :
    ∀ {h : Run ε}, h.Of E w₀ actors →
      (h.Steps (fun h l c => Run.FeesKept id r₀.fees (.step h l c)) ↔ h.Steps (UnchargedSinceLock id))
  | .start _, _ => Iff.rfl
  | .step h l c, hv => by
    have ih := fees_kept_iff hr₀ hopen hv.1
    have last : h.Steps (fun h l c => Run.FeesKept id r₀.fees (.step h l c)) → Run.FeesKept id r₀.fees h := by
      cases h with
      | start c =>
        intro _ r hr hclosed
        have hc : c = begin w₀ actors := hv.1
        subst hc
        exact absurd (Option.some.inj (hr₀.symm.trans hr) ▸ hclosed) hopen
      | step h l c => exact And.right
    have hstep := fun hk => Run.Of.feesKept_step hv.1 hv.2 (Run.Of.chargeable hr₀ hv.1) (last hk)
    exact ⟨fun hk => ⟨ih.mp hk.1, (hstep hk.1).mp hk.2⟩, fun hu => ⟨ih.mpr hu.1, (hstep (ih.mpr hu.1)).mpr hu.2⟩⟩

end

/-! ## A lost fee -/

/-- Two dry-run attempts to close the trade, and an overnight fee. -/
def sampleFeeTasks (i : Nat) : Actor :=
  if i < 2 then .closePosition (sampleTrader true) 7 .slHit else .applyOvernightFee 1 7 3

/-- The first attempt is held up, the second takes its lock over, finds no tick and gives the lock back, the fee
is charged, and the first attempt goes on. -/
def sampleLostFee : Run Unit :=
  .play anyExchange ⟨sampleOpenDb, (), 0⟩ sampleFeeTasks
    [.commit 0, .wait 301000000, .commit 1, .noPrice 1, .commit 1, .commit 2, .price 0 110 111, .clock 0, .commit 0]

/-- The fee was taken from the balance, and is not among the fees of the closed trade. -/
theorem sampleLostFee_lost : sampleLostFee.Of anyExchange ⟨sampleOpenDb, (), 0⟩ sampleFeeTasks ∧
    sampleOpenDb.trades.find? 7 = some sampleTrade ∧ sampleTrade.status ≠ .closed ∧
    ¬ Run.FeesKept 7 sampleTrade.fees sampleLostFee :=
  ⟨Run.play_of _ _ _ _, rfl, by decide, by decide +kernel⟩

/-- The fee is charged before the trade is locked. -/
def sampleKeptFee : Run Unit :=
  .play anyExchange ⟨sampleOpenDb, (), 0⟩ sampleFeeTasks [.commit 2, .commit 0, .price 0 110 111, .clock 0, .commit 0]

theorem sampleKeptFee_kept :
    sampleKeptFee.Steps fun h l c => Run.FeesKept 7 sampleTrade.fees (.step h l c) :=
  (@fees_kept_iff _ anyExchange _ ⟨sampleOpenDb, (), 0⟩ 7 sampleTrade rfl (by decide) _
    (Run.play_of _ _ sampleFeeTasks _)).mpr (by decide +kernel)

end AutoTrader
