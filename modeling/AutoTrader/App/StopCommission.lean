import AutoTrader.App.Reconciled
import AutoTrader.Executor.Play

/-!
# The commission of a reconciled stop

A reconciliation that finds a trade stopped out adds the commission to the fees of the trade and then closes it, in
two commits. An `Attempt` is what happens around the statements of one `close_reconciled_with`: which of them fail,
whether one that fails was executed all the same, and what others commit before each of them. `commission_once_iff`
says of which attempts a refused one leaves nothing behind, so that the commission is charged once however often the
reconciliation is repeated.
-/

namespace AutoTrader

open Lib (Prog)
open Lib.Prog (Ends EndsE)

/-! ## Attempts -/

/-- A close by the reconciliation, with the fees that it adds. -/
structure ReconciledClose where
  trade : Trade
  exitPrice : Decimal
  exitReason : ExitReason
  extraFees : Decimal

/-- The statements of a reconciled close, each of which commits on its own. The closing transaction is one of them:
what fails in it before its commit is undone. -/
inductive ReconcileStatement where
  | fee
  | select
  | settle
  deriving DecidableEq, Repr

/-- The statement that a query is. -/
def Query.reconcileStatement : Query → ReconcileStatement
  | .addFees _ _ => .fee
  | .selectUnsettled _ => .select
  | _ => .settle

/-- What becomes of a statement that is sent. -/
inductive StatementOutcome where
  | answered
  /-- It is not executed, and fails. -/
  | failed (e : Error)
  /-- It is executed, and its answer is lost. -/
  | lost (e : Error)

/-- What happens while a close is attempted: the failures of the database, what others make of it before each
statement, and the answers to the other calls. -/
structure Attempt where
  outcome : ReconcileStatement → StatementOutcome
  others : ReconcileStatement → Db → Db
  answers : (c : StartupCall) → c.Ret
  now : DateTime

/-- The database during a close. -/
structure CloseWorld where
  db : Db
  /-- The database before and after each statement of the close that committed. -/
  commits : List (Db × Db)
  /-- The trade is closed, and the daily summary is next. -/
  backfilling : Bool

/-- A statement after what others have made of the database. -/
def Attempt.query (a : Attempt) (w : CloseWorld) (q : Query) : Except Error q.Ok × CloseWorld :=
  let db := a.others q.reconcileStatement w.db
  match a.outcome q.reconcileStatement, q.tx.run a.now db with
  | .answered, .ok (r, db') => (.ok r, { w with db := db', commits := w.commits ++ [(db, db')] })
  | .answered, .error e => (.error e, { w with db })
  | .failed e, _ => (.error e, { w with db })
  | .lost e, .ok (_, db') => (.error e, { w with db := db', commits := w.commits ++ [(db, db')] })
  | .lost e, .error _ => (.error e, { w with db })

/-- The answer of an attempt to each call. -/
def Attempt.answer (a : Attempt) (w : CloseWorld) : (c : StartupCall) → c.Ret × CloseWorld
  | .trading (.db q) => a.query w q
  | .accountType accountId => (a.answers (.accountType accountId), { w with backfilling := true })
  | c => (a.answers c, w)

section

variable (c : ReconciledClose) (a : Attempt) (db : Db)

/-- The close under an attempt. -/
def Attempt.run : Except Error Unit × CloseWorld :=
  (closeReconciledWith c.trade c.exitPrice c.exitReason c.extraFees).run.exec a.answer ⟨db, [], false⟩

/-- `add_fees` or `close_trade_reconciled` returned an error. -/
def Attempt.refused : Bool := !(a.run c db).1.isOk && !(a.run c db).2.backfilling

end

/-- The attempts of a list that are made, each with the database it starts from: after one that is refused comes
the next. -/
def attemptsMade (c : ReconciledClose) : List Attempt → Db → List (Attempt × Db)
  | [], _ => []
  | a :: as, db => (a, db) :: if a.refused c db then attemptsMade c as (a.run c db).2.db else []

/-! ## What a close writes -/

/-- The fees of a trade. -/
def Db.feesOf (db : Db) (id : Uuid) : Decimal := ((db.trades.find? id).map (·.fees)).getD 0

/-- By how much statements raise the fees of a trade. -/
def charged (id : Uuid) (commits : List (Db × Db)) : Decimal :=
  (commits.map fun s => s.2.feesOf id - s.1.feesOf id).sum

/-- The fees and the status of the trade, and the balances of all accounts, are the same. -/
structure AsBefore (id : Uuid) (before after : Db) : Prop where
  trade : (after.trades.find? id).map (fun r => (r.fees, r.status)) =
    (before.trades.find? id).map fun r => (r.fees, r.status)
  balances : ∀ accountId, (after.accounts.find? accountId).map (·.currentBalance) =
    (before.accounts.find? accountId).map (·.currentBalance)

/-- A refused attempt writes nothing, and the commission is charged once when the trade is closed. -/
structure AllOrNothing (c : ReconciledClose) (as : List Attempt) (db : Db) : Prop where
  nothing : ∀ m ∈ attemptsMade c as db, m.1.refused c m.2 → ∀ s ∈ (m.1.run c m.2).2.commits,
    AsBefore c.trade.id s.1 s.2
  once : (∃ m ∈ attemptsMade c as db, m.1.refused c m.2 = false) →
    ((attemptsMade c as db).map fun m => charged c.trade.id (m.1.run c m.2).2.commits).sum = c.extraFees

section

variable (a : Attempt) (id : Uuid) (db : Db)

/-- The trade can be closed: its row is read, and it is unsettled then and when it is settled. -/
def Attempt.Reads : Prop :=
  a.outcome .select = .answered ∧ ∃ r, (a.others .select db).trades.find? id = some r ∧ r.status.unsettled ∧
    let db' := a.others .settle (a.others .select db)
    (∃ r', db'.trades.find? id = some r' ∧ r'.status.unsettled) ∧ (db'.accounts.find? r.accountId).isSome

/-- The close of a trade goes through. -/
def Attempt.Closes : Prop := a.Reads id db ∧ a.outcome .settle = .answered

/-- The trade is closed, and the answer to that is lost. -/
def Attempt.LosesClose : Prop := a.Reads id db ∧ ∃ e, a.outcome .settle = .lost e

/-- No statement that writes loses its answer, and if the fees are charged, the close goes through. -/
structure Attempt.Settles (fee : Decimal) : Prop where
  uncharged : fee = 0 → ¬a.LosesClose id db
  charged : fee ≠ 0 → ∀ r, (a.others .fee db).trades.find? id = some r →
    (∃ e, a.outcome .fee = .failed e) ∨ a.outcome .fee = .answered ∧
      a.Closes id { a.others .fee db with trades := (a.others .fee db).trades.set (r.charge fee) }

end

/-! ## One statement -/

theorem AsBefore.refl (id : Uuid) (db : Db) : AsBefore id db db := ⟨rfl, fun _ => rfl⟩

theorem feesOf_of_find? {db : Db} {id : Uuid} {r : TradeRow} (hr : db.trades.find? id = some r) :
    db.feesOf id = r.fees := by
  rw [Db.feesOf, hr]
  rfl

theorem find?_set_self {db db' : Db} {id : Uuid} {r r' : TradeRow} (hr : db.trades.find? id = some r)
    (hid : r'.id = r.id) (h : db'.trades = db.trades.set r') : db'.trades.find? id = some r' := by
  have hset : db.trades.find? r'.id = some r := by rw [hid, Db.trade_id hr]; exact hr
  rw [h, Lib.Table.find?_set hset]
  exact if_pos (hid.trans (Db.trade_id hr)).symm

theorem charged_set {db db' : Db} {id : Uuid} {r r' : TradeRow} (hr : db.trades.find? id = some r)
    (hid : r'.id = r.id) (h : db'.trades = db.trades.set r') : charged id [(db, db')] = r'.fees - r.fees := by
  rw [charged, List.map_singleton, List.sum_singleton, feesOf_of_find? hr, feesOf_of_find? (find?_set_self hr hid h)]

/-- What `add_fees` charges. -/
theorem charged_charge {db db' : Db} {id : Uuid} {r : TradeRow} {fee : Decimal} (hr : db.trades.find? id = some r)
    (h : db'.trades = db.trades.set (r.charge fee)) : charged id [(db, db')] = fee :=
  (@charged_set _ _ _ _ (r.charge fee) hr rfl h).trans (add_sub_cancel_left _ _)

theorem AsBefore.feesOf {id : Uuid} {before after : Db} (h : AsBefore id before after) :
    after.feesOf id = before.feesOf id := by
  have htrade := congrArg (Option.map Prod.fst) h.trade
  rw [Option.map_map, Option.map_map] at htrade
  exact congrArg (Option.getD · 0) htrade

theorem charged_append (id : Uuid) (cs cs' : List (Db × Db)) :
    charged id (cs ++ cs') = charged id cs + charged id cs' := by
  rw [charged, List.map_append, List.sum_append]
  rfl

theorem charged_asBefore {id : Uuid} {cs : List (Db × Db)} (h : ∀ s ∈ cs, AsBefore id s.1 s.2) :
    charged id cs = 0 := by
  refine List.sum_eq_zero fun x hx => ?_
  obtain ⟨s, hs, rfl⟩ := List.mem_map.mp hx
  exact sub_eq_zero.mpr (h s hs).feesOf

section

variable {a : Attempt} {w : CloseWorld}

/-- An attempt, as a handler. -/
def Attempt.handler (a : Attempt) : Prog.Handler StartupCalls CloseWorld := fun w c r w' => a.answer w c = (r, w')

/-- An attempt, as a handler of the trading code's calls. -/
def Attempt.tradingHandler (a : Attempt) : Prog.Handler Calls CloseWorld :=
  fun w c r w' => a.answer w (.trading c) = (r, w')

theorem trading_ends {α : Type} {x : Exec α} {Q : α → CloseWorld → Prop} {E : Error → CloseWorld → Prop}
    (h : EndsE a.tradingHandler w x Q E) :
    EndsE a.handler w (trading x) Q E := by
  refine Ends.trans_of (K := a.handler) (fun s c r s' hr => ?_) h
  obtain ⟨r', s₁, hr, rfl, rfl⟩ := hr
  exact hr

/-- A statement commits and is answered or not, or it fails and the database is what others made of it. -/
theorem statement_ends {q : Query} {Q : q.Ok → CloseWorld → Prop} {E : Error → CloseWorld → Prop}
    (hok : ∀ r db, a.outcome q.reconcileStatement = .answered →
      q.tx.run a.now (a.others q.reconcileStatement w.db) = .ok (r, db) →
      Q r { w with db, commits := w.commits ++ [(a.others q.reconcileStatement w.db, db)] })
    (hlost : ∀ e r db, a.outcome q.reconcileStatement = .lost e →
      q.tx.run a.now (a.others q.reconcileStatement w.db) = .ok (r, db) →
      E e { w with db, commits := w.commits ++ [(a.others q.reconcileStatement w.db, db)] })
    (herr : ∀ e, ((∃ e', a.outcome q.reconcileStatement = .failed e') ∨ ∀ r db,
        q.tx.run a.now (a.others q.reconcileStatement w.db) ≠ .ok (r, db)) →
      E e { w with db := a.others q.reconcileStatement w.db }) :
    EndsE a.tradingHandler w (query q) Q E := by
  refine Ends.perform (H := a.tradingHandler) fun r w' hr => ?_
  have hr : a.query w q = (r, w') := hr
  unfold Attempt.query at hr
  dsimp only at hr
  split at hr
  · rename_i r' db hanswered h
    obtain ⟨rfl, rfl⟩ := Prod.mk.inj hr
    exact hok r' db hanswered h
  · rename_i e _ h
    obtain ⟨rfl, rfl⟩ := Prod.mk.inj hr
    refine herr e (.inr fun r db h' => ?_)
    cases h.symm.trans h'
  · rename_i e hfailed
    obtain ⟨rfl, rfl⟩ := Prod.mk.inj hr
    exact herr e (.inl ⟨e, hfailed⟩)
  · rename_i e r' db hlost' h
    obtain ⟨rfl, rfl⟩ := Prod.mk.inj hr
    exact hlost e r' db hlost' h
  · rename_i e e' _ h
    obtain ⟨rfl, rfl⟩ := Prod.mk.inj hr
    refine herr e (.inr fun r db h' => ?_)
    cases h.symm.trans h'

/-! ## One close -/

/-- A close that went through after `w`. -/
structure Closed (id : Uuid) (a : Attempt) (w w' : CloseWorld) : Prop where
  closes : a.Closes id w.db
  commits : ∃ cs, w'.commits = w.commits ++ cs ∧ charged id cs = 0

/-- A close that was refused after `w`: it has written only if its answer was lost. -/
structure NotClosed (id : Uuid) (a : Attempt) (w w' : CloseWorld) : Prop where
  backfilling : w'.backfilling = w.backfilling
  closes : ¬a.Closes id w.db
  commits : ∃ cs, w'.commits = w.commits ++ cs ∧ ((∀ s ∈ cs, AsBefore id s.1 s.2) ↔ ¬a.LosesClose id w.db)

/-- A close that has written nothing. -/
theorem NotClosed.of_unwritten {id : Uuid} {w' : CloseWorld} {cs : List (Db × Db)}
    (hbackfilling : w'.backfilling = w.backfilling) (hcommits : w'.commits = w.commits ++ cs)
    (hsame : ∀ s ∈ cs, AsBefore id s.1 s.2) (hcloses : ¬a.Closes id w.db) (hloses : ¬a.LosesClose id w.db) :
    NotClosed id a w w' :=
  ⟨hbackfilling, hcloses, cs, hcommits, fun _ => hloses, fun _ => hsame⟩

/-- The settlement of an unsettled trade is seen in its row. -/
theorem not_asBefore_settled {db db' : Db} {id : Uuid} {r r' : TradeRow} (hr : db.trades.find? id = some r)
    (hs : r.status.unsettled) (hid : r'.id = r.id) (hclosed : r'.status = .closed)
    (h : db'.trades = db.trades.set r') : ¬AsBefore id db db' := by
  intro hsame
  have htrade := hsame.trade
  rw [hr, find?_set_self hr hid h, Option.map_some, Option.map_some] at htrade
  have hstatus : r'.status = r.status := (Prod.mk.inj (Option.some.inj htrade)).2
  rw [← hstatus, hclosed] at hs
  cases hs

theorem asBefore_self {id : Uuid} {db : Db} : ∀ s ∈ [(db, db)], AsBefore id s.1 s.2 := by
  intro s hs
  rw [List.mem_singleton.mp hs]
  exact .refl id _

/-- The closing transaction, after the trade was selected. -/
theorem settlement_ends {id : Uuid} {r : TradeRow} (hselect : a.outcome .select = .answered)
    (hr : (a.others .select w.db).trades.find? id = some r) (hs : r.status.unsettled) (exitPrice : Decimal)
    (exitAt : DateTime) (pnl : Decimal) (exitReason : ExitReason) (margin : Decimal) :
    EndsE a.tradingHandler
      { w with
        db := a.others .select w.db
        commits := w.commits ++ [(a.others .select w.db, a.others .select w.db)] }
      (query (.closeTradeReconciled id r.accountId exitPrice exitAt pnl exitReason margin))
      (fun _ w' => Closed id a w w') fun _ w' => NotClosed id a w w' := by
  have hreads : ∀ {r' : TradeRow} {account : TradingAccount},
      (a.others .settle (a.others .select w.db)).trades.find? id = some r' → r'.status.unsettled →
      (a.others .settle (a.others .select w.db)).accounts.find? r.accountId = some account → a.Reads id w.db :=
    fun hr' hs' haccount => ⟨hselect, r, hr, hs, ⟨_, hr', hs'⟩, Option.isSome_iff_exists.mpr ⟨_, haccount⟩⟩
  refine statement_ends (fun u db hsettle h => ?_) (fun e u db hlost h => ?_) fun e hfail => ?_
  · obtain ⟨r', account, hr', hs', haccount, hdb⟩ := closeTradeReconciledTx_ok h
    have hsettled := @charged_set _ _ _ _ (r'.settle exitPrice exitAt pnl exitReason r'.fees) hr' rfl
      (congrArg Db.trades hdb)
    refine ⟨⟨hreads hr' (by simpa using hs') haccount, hsettle⟩, _, List.append_assoc _ _ _, ?_⟩
    refine (charged_append _ _ _).trans ?_
    exact (congrArg₂ (· + ·) (charged_asBefore asBefore_self) (hsettled.trans (sub_self _))).trans (add_zero 0)
  · obtain ⟨r', account, hr', hs', haccount, hdb⟩ := closeTradeReconciledTx_ok h
    have hclosed := @not_asBefore_settled _ _ _ _ (r'.settle exitPrice exitAt pnl exitReason r'.fees) hr'
      (by simpa using hs') rfl rfl (congrArg Db.trades hdb)
    refine ⟨rfl, fun hcloses => ?_, _, List.append_assoc _ _ _, fun hall => ?_, fun hnot => ?_⟩
    · cases hlost.symm.trans hcloses.2
    · exact absurd (hall _ (List.mem_append_right _ (List.mem_singleton.mpr rfl))) hclosed
    · exact absurd ⟨hreads hr' (by simpa using hs') haccount, e, hlost⟩ hnot
  · have hunsettled : a.Reads id w.db → ∃ e', a.outcome .settle = .failed e' := by
      rintro ⟨-, r₁, hr₁, -, ⟨r', hr', hs'⟩, haccount⟩
      obtain rfl := Option.some.inj (hr.symm.trans hr₁)
      obtain ⟨account, haccount⟩ := Option.isSome_iff_exists.mp haccount
      obtain ⟨db', h⟩ := closeTradeReconciledTx_run hr' hs' haccount
      exact hfail.resolve_right fun hnot => hnot _ _ h
    refine .of_unwritten rfl rfl asBefore_self (fun h => ?_) fun h => ?_
    · obtain ⟨e', hfailed⟩ := hunsettled h.1
      cases hfailed.symm.trans h.2
    · obtain ⟨e', hfailed⟩ := hunsettled h.1
      obtain ⟨e'', hlost⟩ := h.2
      cases hfailed.symm.trans hlost

theorem closeTrade_ends (id : Uuid) (exitPrice pnl : Decimal) (exitReason : ExitReason) :
    EndsE a.handler w (trading (closeTradeReconciled id exitPrice pnl exitReason)) (fun _ w' => Closed id a w w')
      fun _ w' => NotClosed id a w w' := by
  refine trading_ends (EndsE.bindLift (Ends.perform (H := a.tradingHandler) fun exitAt w₁ hw => ?_))
  obtain ⟨-, rfl⟩ := Prod.mk.inj (show (a.answers (.trading .utcNow), w) = (exitAt, w₁) from hw)
  refine EndsE.bind (statement_ends (fun o db hselect h => ?_) (fun e o db hlost h => ?_) fun e hfail => ?_)
  · obtain ⟨ho, rfl⟩ := Prod.mk.inj (Except.ok.inj h)
    cases o with
    | none =>
      have hreads : ¬a.Reads id w.db := by
        rintro ⟨-, r, hr, hs, -⟩
        have ho : (((a.others .select w.db).trades.find? id).bind fun r =>
          if r.status.unsettled then some r.toTrade else none) = none := ho
        rw [hr, Option.bind_some, if_pos hs] at ho
        exact Option.some_ne_none _ ho
      exact EndsE.throw (.of_unwritten rfl rfl asBefore_self (fun h => hreads h.1) fun h => hreads h.1)
    | some trade =>
      obtain ⟨r, hr, ht⟩ := Option.bind_eq_some_iff.mp ho
      obtain ⟨hs, rfl⟩ : r.status.unsettled = true ∧ r.toTrade = trade := by simpa using ht
      exact settlement_ends hselect hr hs exitPrice exitAt pnl exitReason _
  · obtain ⟨-, rfl⟩ := Prod.mk.inj (Except.ok.inj h)
    refine .of_unwritten rfl rfl asBefore_self (fun h => ?_) fun h => ?_ <;> cases hlost.symm.trans h.1.1
  · obtain ⟨e', hfailed⟩ := hfail.resolve_right fun hnot => hnot _ _ rfl
    refine .of_unwritten rfl (List.append_nil _).symm (fun s hs => absurd hs List.not_mem_nil) (fun h => ?_) fun h => ?_
      <;> cases hfailed.symm.trans h.1.1

theorem summary_ends (trade : Trade) (pnl : Decimal) :
    EndsE a.handler w (backfillDailySummaryForReconciledClose trade pnl)
      (fun _ w' => w'.backfilling = true ∧ w'.commits = w.commits)
      fun _ w' => w'.backfilling = true ∧ w'.commits = w.commits := by
  refine EndsE.bindLift (Ends.perform (H := a.handler) fun now w₁ hw => ?_)
  obtain ⟨-, rfl⟩ := Prod.mk.inj (show (a.answers (.trading .utcNow), w) = (now, w₁) from hw)
  refine EndsE.bind (Ends.perform (H := a.handler) fun r w₂ hw => ?_)
  obtain ⟨-, rfl⟩ := Prod.mk.inj
    (show (a.answers (.accountType trade.accountId), { w with backfilling := true }) = (r, w₂) from hw)
  cases r with
  | error e => exact ⟨rfl, rfl⟩
  | ok live =>
    refine EndsE.bindLift (Ends.perform (H := a.handler) fun r w₃ hw => EndsE.pure ?_)
    obtain ⟨-, rfl⟩ := Prod.mk.inj
      (show (a.answers (.upsertDailySummary _ _ _ _), { w with backfilling := true }) = (r, w₃) from hw)
    exact ⟨rfl, rfl⟩

/-- How an attempt ends: the commission is charged with the close, or the close is refused, and then something
was written only if it was the commission, or a close whose answer was lost. -/
inductive AttemptEnd (c : ReconciledClose) (a : Attempt) (db : Db) (w : CloseWorld) : Bool → Prop
  | closed (backfilling : w.backfilling = true) (charged : charged c.trade.id w.commits = c.extraFees)
    (settles : a.Settles c.trade.id db c.extraFees) : AttemptEnd c a db w true
  | refused (backfilling : w.backfilling = false)
    (asBefore : (∀ s ∈ w.commits, AsBefore c.trade.id s.1 s.2) ↔ a.Settles c.trade.id db c.extraFees) :
      AttemptEnd c a db w false

/-- The close after what was charged before it. -/
theorem closing_ends (c : ReconciledClose) (pnl : Decimal) {db : Db}
    (hclosed : ∀ w', Closed c.trade.id a w w' → charged c.trade.id w'.commits = c.extraFees ∧
      a.Settles c.trade.id db c.extraFees)
    (hrefused : ∀ w', NotClosed c.trade.id a w w' → AttemptEnd c a db w' false) :
    EndsE a.handler w
      (trading (closeTradeReconciled c.trade.id c.exitPrice pnl c.exitReason) >>= fun _ =>
        backfillDailySummaryForReconciledClose c.trade pnl)
      (fun _ w' => AttemptEnd c a db w' true) fun _ w' => ∃ closed, AttemptEnd c a db w' closed := by
  refine EndsE.bind ((closeTrade_ends c.trade.id c.exitPrice pnl c.exitReason).mono (fun _ w₁ h₁ => ?_)
    fun _ w₁ h₁ => ⟨false, hrefused w₁ h₁⟩)
  obtain ⟨hcharged, hsettles⟩ := hclosed w₁ h₁
  have hend : ∀ w₂ : CloseWorld, w₂.backfilling = true ∧ w₂.commits = w₁.commits → AttemptEnd c a db w₂ true :=
    fun w₂ h₂ => .closed h₂.1 (h₂.2 ▸ hcharged) hsettles
  exact (summary_ends c.trade pnl).mono (fun _ w₂ h₂ => hend w₂ h₂) fun _ w₂ h₂ => ⟨true, hend w₂ h₂⟩

theorem attempt_ends (c : ReconciledClose) (a : Attempt) (db : Db) :
    EndsE a.handler ⟨db, [], false⟩ (closeReconciledWith c.trade c.exitPrice c.exitReason c.extraFees)
      (fun _ w' => AttemptEnd c a db w' true) fun _ w' => ∃ closed, AttemptEnd c a db w' closed := by
  simp only [closeReconciledWith]
  by_cases hfee : c.extraFees = 0
  · rw [if_neg (not_not.mpr hfee)]
    refine closing_ends c _ (fun w' h => ?_) fun w' h => ?_
    · obtain ⟨cs, hcs, hzero⟩ := h.commits
      have hcs : w'.commits = cs := hcs
      refine ⟨by rw [hcs, hzero, hfee], fun _ hloses => ?_, fun hne => absurd hfee hne⟩
      obtain ⟨e, hlost⟩ := hloses.2
      cases hlost.symm.trans h.closes.2
    · obtain ⟨cs, hcs, hsame⟩ := h.commits
      have hcs : w'.commits = cs := hcs
      refine .refused h.backfilling ?_
      rw [hcs, hsame]
      exact ⟨fun hnot => ⟨fun _ => hnot, fun hne => absurd hfee hne⟩, fun h => h.uncharged hfee⟩
  · rw [if_pos hfee]
    refine EndsE.bind (trading_ends (statement_ends (fun u db' hanswered h => ?_) (fun e u db' hlost h => ?_)
      fun e hfail => ?_))
    · obtain ⟨r, hr, hdb⟩ := addFees_ok h
      have hcharged := charged_charge hr (congrArg Db.trades hdb)
      have hsettles : a.Settles c.trade.id db c.extraFees ↔ a.Closes c.trade.id db' := by
        subst hdb
        constructor
        · intro hsettles
          rcases hsettles.charged hfee r hr with ⟨e, hfailed⟩ | ⟨-, hcloses⟩
          · cases hfailed.symm.trans hanswered
          · exact hcloses
        · refine fun hcloses => ⟨fun hzero => absurd hzero hfee, fun _ r' hr' => .inr ⟨hanswered, ?_⟩⟩
          obtain rfl := Option.some.inj (hr.symm.trans hr')
          exact hcloses
      refine closing_ends c _ (fun w' h => ?_) fun w' h => ?_
      · obtain ⟨cs, hcs, hzero⟩ := h.commits
        have hsum := congrArg (charged c.trade.id) hcs
        rw [charged_append, hzero, add_zero] at hsum
        exact ⟨hsum.trans hcharged, hsettles.mpr h.closes⟩
      · obtain ⟨cs, hcs, -⟩ := h.commits
        refine .refused h.backfilling ⟨fun hsame => ?_, fun hsettled => absurd (hsettles.mp hsettled) h.closes⟩
        have hzero := charged_asBefore fun s hs => hsame s (hcs ▸ List.mem_append_left cs hs)
        exact absurd (hcharged.symm.trans hzero) hfee
    · -- The commission is charged, and the call does not know.
      obtain ⟨r, hr, hdb⟩ := addFees_ok h
      have hcharged := charged_charge hr (congrArg Db.trades hdb)
      refine ⟨false, .refused rfl ⟨fun hsame => ?_, fun hsettled => ?_⟩⟩
      · exact absurd (hcharged.symm.trans (charged_asBefore hsame)) hfee
      · rcases hsettled.charged hfee r hr with ⟨e, hfailed⟩ | ⟨hanswered, -⟩
        · cases hfailed.symm.trans hlost
        · cases hanswered.symm.trans hlost
    · refine ⟨false, .refused rfl ⟨fun _ => ⟨fun hzero => absurd hzero hfee, fun _ r hr => .inl ?_⟩,
        fun _ s hs => absurd hs List.not_mem_nil⟩⟩
      exact hfail.resolve_right fun hnot => hnot _ _ (addFees_run hr)

/-! ## All attempts -/

theorem AttemptEnd.backfilling_eq {c : ReconciledClose} {db : Db} {closed : Bool} (h : AttemptEnd c a db w closed) :
    w.backfilling = closed := by
  rcases h with ⟨h, -, -⟩ | ⟨h, -⟩ <;> exact h

end

section

variable {c : ReconciledClose}

theorem attempt_end (a : Attempt) (db : Db) : AttemptEnd c a db (a.run c db).2 (!a.refused c db) := by
  obtain ⟨hok, herror⟩ := EndsE.exec (attempt_ends c a db)
  unfold Attempt.refused
  cases hr : (a.run c db).1 with
  | ok u => exact hok u hr
  | error e =>
    obtain ⟨closed, h⟩ := herror e hr
    rw [Attempt.run, h.backfilling_eq]
    cases closed <;> exact h

theorem refused_asBefore {a : Attempt} {db : Db} (h : a.refused c db = true) :
    (∀ s ∈ (a.run c db).2.commits, AsBefore c.trade.id s.1 s.2) ↔ a.Settles c.trade.id db c.extraFees := by
  have hend := attempt_end (c := c) a db
  rw [h] at hend
  rcases hend with - | ⟨-, h⟩
  exact h

theorem closed_charged {a : Attempt} {db : Db} (h : a.refused c db = false) :
    charged c.trade.id (a.run c db).2.commits = c.extraFees ∧ a.Settles c.trade.id db c.extraFees := by
  have hend := attempt_end (c := c) a db
  rw [h] at hend
  rcases hend with ⟨-, hcharged, hsettles⟩ | -
  exact ⟨hcharged, hsettles⟩

theorem attemptsMade_refused {a : Attempt} {as : List Attempt} {db : Db} (h : a.refused c db = true) :
    attemptsMade c (a :: as) db = (a, db) :: attemptsMade c as (a.run c db).2.db := by
  rw [attemptsMade, if_pos h]

theorem attemptsMade_closed {a : Attempt} {as : List Attempt} {db : Db} (h : a.refused c db = false) :
    attemptsMade c (a :: as) db = [(a, db)] := by
  rw [attemptsMade, if_neg (Bool.eq_false_iff.mp h)]

/-- If no refused attempt charges anything, the last one charges all. -/
theorem sum_charged : ∀ {as : List Attempt} {db : Db},
    (∀ m ∈ attemptsMade c as db, m.1.refused c m.2 → ∀ s ∈ (m.1.run c m.2).2.commits,
      AsBefore c.trade.id s.1 s.2) →
    (∃ m ∈ attemptsMade c as db, m.1.refused c m.2 = false) →
    ((attemptsMade c as db).map fun m => charged c.trade.id (m.1.run c m.2).2.commits).sum = c.extraFees
  | [], _, _, ⟨_, hm, _⟩ => absurd hm List.not_mem_nil
  | a :: as, db, hnothing, ⟨m, hm, hclosed⟩ => by
    cases h : a.refused c db with
    | false =>
      rw [attemptsMade_closed h, List.map_singleton, List.sum_singleton]
      exact (closed_charged h).1
    | true =>
      rw [attemptsMade_refused h] at hnothing hm ⊢
      have hm : m ∈ attemptsMade c as (a.run c db).2.db := by
        refine (List.mem_cons.mp hm).resolve_left ?_
        rintro rfl
        exact absurd (h.symm.trans hclosed) (by decide)
      have hrest := sum_charged (fun m hm => hnothing m (List.mem_cons_of_mem _ hm)) ⟨m, hm, hclosed⟩
      rw [List.map_cons, List.sum_cons, hrest, charged_asBefore (hnothing _ List.mem_cons_self h), zero_add]

end

/-- The commission is charged all or nothing, however often the reconciliation is repeated, if and only if in each
attempt that charges it the close goes through, and no statement that writes loses its answer. -/
theorem commission_once_iff (c : ReconciledClose) (as : List Attempt) (db : Db) :
    AllOrNothing c as db ↔ ∀ m ∈ attemptsMade c as db, m.1.Settles c.trade.id m.2 c.extraFees := by
  constructor
  · intro h m hm
    cases hr : m.1.refused c m.2 with
    | true => exact (refused_asBefore hr).mp (h.nothing m hm hr)
    | false => exact (closed_charged hr).2
  · intro h
    have hnothing : ∀ m ∈ attemptsMade c as db, m.1.refused c m.2 → ∀ s ∈ (m.1.run c m.2).2.commits,
        AsBefore c.trade.id s.1 s.2 := fun m hm hr => (refused_asBefore hr).mpr (h m hm)
    exact ⟨hnothing, sum_charged hnothing⟩

/-! ## A failure between the two commits -/

/-- A database with an open trade whose stop was executed. -/
def sampleStoppedDb : Db where
  trades := sampleOpenDb.trades
  accounts := sampleDb.accounts
  accountEvents := []
  notifications := []

/-- The exchange has sold at the stop for a commission of 3. -/
def sampleStopped : ReconciledClose := ⟨sampleTrade.toTrade, 99, .slHit, 3⟩

/-- Nobody else is there, and only the given statement may fail. -/
def sampleAttempt (outcome : ReconcileStatement → StatementOutcome) : Attempt where
  outcome
  others _ db := db
  answers c := (sampleStartupAnswer ⟨sampleStoppedDb, .empty⟩ c).1
  now := 0

/-- The database fails when the trade is read, and the next start closes the trade: its fees are twice the
commission. -/
theorem sampleStopped_chargedTwice :
    let failing := sampleAttempt fun s => if s = .select then .failed [.lit "connection lost"] else .answered
    let attempts := [failing, sampleAttempt fun _ => .answered]
    ¬AllOrNothing sampleStopped attempts sampleStoppedDb ∧
      ((attemptsMade sampleStopped attempts sampleStoppedDb).getLast?.map fun m =>
        (m.1.run sampleStopped m.2).2.db.feesOf 7) = some 6 := by
  intro failing attempts
  refine ⟨fun h => ?_, by decide +kernel⟩
  have hcharged := h.once ⟨(sampleAttempt fun _ => .answered, (failing.run sampleStopped sampleStoppedDb).2.db),
    List.mem_cons_of_mem _ List.mem_cons_self, by decide +kernel⟩
  exact absurd hcharged (by decide +kernel)

end AutoTrader
