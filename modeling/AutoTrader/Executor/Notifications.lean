import AutoTrader.Executor.Settlement

/-!
# The notifications of a trade

The transactions that open and close a trade insert a notification of it, the one that reconciles a trade does not.
`Query.notifies` says what every query adds, and `Notified` is the invariant of a run: each trade has one notification
of its opening, and one of its closing iff a close attempt has closed it (`notifications_mirror_trades`). What counts
is what was inserted: `purge_old_read` deletes notifications that were read long ago.
-/

namespace AutoTrader

open Lib (History)
open Lib.Table (find?_set find?_insert insert_fresh)

variable {ε : Type} {E : ExchangeModel ε} {actors : Nat → Actor} {w₀ : World ε}

/-! ## What is inserted -/

/-- The row that `insert_trade_opened` inserts. -/
def Trade.openedNotification (t : Trade) : Notification :=
  ⟨.tradeOpened, t.id, t.accountId, t.strategyName, t.pair, t.direction, t.entryPrice, none, none⟩

/-- The row that `insert_trade_closed` inserts for an exit. -/
def Trade.exitNotification (t : Trade) (exitPrice pnlAmount : Decimal) (exitReason : ExitReason) : Notification :=
  ⟨.tradeClosed, t.id, t.accountId, t.strategyName, t.pair, t.direction, exitPrice, some pnlAmount, some exitReason⟩

/-- The notification of a trade's own exit, if it has all of one. -/
def Trade.closedNotification (t : Trade) : Option Notification := do
  return t.exitNotification (← t.exitPrice) (← t.pnlAmount) (← t.exitReason)

/-- The notification that a query inserts. -/
def Query.notification : Query → Option Notification
  | .persistOpenTrade _ trade _ => some trade.openedNotification
  | .persistClosedTrade _ closedTrade _ _ _ _ _ => closedTrade.closedNotification
  | _ => none

/-- The notifications of one kind about a trade, newest first. -/
def Db.notificationsOf (db : Db) (id : Uuid) (kind : NotificationKind) : List Notification :=
  db.notifications.filter fun n => n.tradeId = id && n.kind = kind

theorem Trade.openedNotification_eq {t u : Trade} (h : t.terms = u.terms) :
    t.openedNotification = u.openedNotification :=
  show t.terms.openedNotification = u.terms.openedNotification by rw [h]

theorem Trade.exitNotification_eq {t u : Trade} (h : t.terms = u.terms) (exitPrice pnlAmount : Decimal)
    (exitReason : ExitReason) :
    t.exitNotification exitPrice pnlAmount exitReason = u.exitNotification exitPrice pnlAmount exitReason :=
  show t.terms.exitNotification _ _ _ = u.terms.exitNotification _ _ _ by rw [h]

theorem Trade.closedNotification_eq {t u : Trade} (h : t.terms = u.terms) (hprice : t.exitPrice = u.exitPrice)
    (hpnl : t.pnlAmount = u.pnlAmount) (hreason : t.exitReason = u.exitReason) :
    t.closedNotification = u.closedNotification := by
  unfold closedNotification
  simp only [hprice, hpnl, hreason, Trade.exitNotification_eq h]

section

variable {now : DateTime} {db db' : Db}

theorem insertTradeClosed_notifies {trade : Trade} {u : Unit}
    (h : (insertTradeClosed trade).run now db = .ok (u, db')) :
    ∃ n, trade.closedNotification = some n ∧ db'.notifications = n :: db.notifications := by
  cases hprice : trade.exitPrice with
  | none => simp [insertTradeClosed, hprice] at h
  | some price =>
    cases hpnl : trade.pnlAmount with
    | none => simp [insertTradeClosed, hprice, hpnl] at h
    | some pnl =>
      cases hreason : trade.exitReason with
      | none => simp [insertTradeClosed, hprice, hpnl, hreason] at h
      | some reason =>
        simp only [insertTradeClosed, hprice, hpnl, hreason, insertNotification_ok] at h
        refine ⟨trade.exitNotification price pnl reason, ?_, by rw [← h]; rfl⟩
        simp [Trade.closedNotification, hprice, hpnl, hreason]

/-- What a committed query adds to the notifications. -/
theorem Query.notifies {q : Query} {a : q.Ok} (h : q.tx.run now db = .ok (a, db')) :
    db'.notifications = q.notification.toList ++ db.notifications := by
  have hw := Query.wrote_of_ok h
  cases q with
  | getAccount _ | listActive =>
    have hw : db' = db := hw
    rw [hw]
    rfl
  | getOpenTradesByAccount _ | selectUnsettled _ =>
    rw [hw.1]
    rfl
  | acquireCloseLock _ _ => rcases hw with ⟨u, -, -, -, rfl⟩ | ⟨-, rfl⟩ <;> rfl
  | releaseCloseLock _ => rcases hw with ⟨u, -, -, rfl⟩ | ⟨-, rfl⟩ <;> rfl
  | addFees _ _ =>
    obtain ⟨u, -, rfl⟩ := hw
    rfl
  | applyOvernightFee _ _ _ | applySfdFee _ _ _ _ | applySwapFee _ _ _ _ =>
    rcases hw with rfl | ⟨u, a, k, at', -, -, -, -, -, rfl⟩ <;> rfl
  | closeTradeReconciled _ _ _ _ _ _ _ =>
    obtain ⟨u, a, -, -, -, rfl⟩ := hw
    rfl
  | persistOpenTrade accountId trade margin =>
    simp only [tx, persistOpenTradeTx, Tx.ok_bind] at h
    obtain ⟨_, db₁, hi, _, db₂, hl, h⟩ := h
    obtain ⟨trades, -, -, -, rfl⟩ := insertTrade_ok hi
    obtain ⟨account, -, rfl⟩ := lockMargin_ok hl
    simp only [insertTradeOpened, insertNotification_ok] at h
    rw [← h]
    rfl
  | persistClosedTrade accountId closed margin pnl price at' reason =>
    simp only [tx, persistClosedTradeTx, Tx.ok_bind] at h
    obtain ⟨_, db₁, hu, _, db₂, hr, h⟩ := h
    obtain ⟨r, -, -, rfl⟩ := updateTradeClosed_ok hu
    obtain ⟨account, -, rfl⟩ := releaseMargin_ok hr
    obtain ⟨n, hn, hns⟩ := insertTradeClosed_notifies h
    rw [hns, notification, hn]
    rfl

theorem notificationsOf_append {ns : List Notification} (h : db'.notifications = ns ++ db.notifications) (id : Uuid)
    (kind : NotificationKind) :
    db'.notificationsOf id kind =
      ns.filter (fun n => n.tradeId = id && n.kind = kind) ++ db.notificationsOf id kind := by
  rw [Db.notificationsOf, h, List.filter_append]
  rfl

/-- A query that inserts no notification of the kind about the trade. -/
theorem notificationsOf_same {q : Query} {id : Uuid} {kind : NotificationKind}
    (h : db'.notifications = q.notification.toList ++ db.notifications)
    (hq : ∀ n ∈ q.notification, ¬(n.tradeId = id ∧ n.kind = kind)) :
    db'.notificationsOf id kind = db.notificationsOf id kind := by
  rw [notificationsOf_append h, List.filter_eq_nil_iff.mpr fun n hn => ?_, List.nil_append]
  have hnot := hq n (Option.mem_toList.mp hn)
  simpa using hnot

end

/-! ## The invariant of a run -/

/-- The notification of the opening of a row. -/
def Db.openings (db : Db) (id : Uuid) : List Notification :=
  (db.trades.find? id).toList.map fun r => r.openedNotification

/-- A close attempt has closed the trade, with the exit that the notification tells. -/
def ClosedBy (stage : Nat → Stage) (id : Uuid) (n : Notification) : Prop :=
  ∃ i t, stage i = .closed t ∧ t.id = id ∧ t.closedNotification = some n

/-- The row of the trade is closed, with the exit that the notification tells. -/
def Db.Tells (db : Db) (id : Uuid) (n : Notification) : Prop :=
  ∃ r, db.trades.find? id = some r ∧ r.status = .closed ∧ r.closedNotification = some n

/-- The notifications of a state mirror its opens and closes. -/
structure Notified (db : Db) (stage : Nat → Stage) : Prop where
  opened : ∀ id, db.notificationsOf id .tradeOpened = db.openings id
  closed : ∀ id, db.notificationsOf id .tradeClosed = [] ∨
    ∃ n, db.notificationsOf id .tradeClosed = [n] ∧ db.Tells id n
  closedBy : ∀ id n, n ∈ db.notificationsOf id .tradeClosed ↔ ClosedBy stage id n
  exits : ∀ i t, stage i = .closed t → t.closedNotification.isSome

section

variable {now : DateTime} {db db' : Db} {st : Nat → Stage} {i : Nat} {q : Query} {a : q.Ok}

/-- What is told of a trade stays true. -/
theorem Db.Tells.wrote {id : Uuid} {n : Notification} (h : db.Tells id n) (hw : q.wrote now db a db') :
    db'.Tells id n := by
  obtain ⟨r, hr, hc, hn⟩ := h
  obtain ⟨r', hr', hs⟩ := Query.wrote_row hw hr
  obtain ⟨hstatus, hprice, -, hreason, hpnl⟩ := hs.closed hc
  exact ⟨r', hr', hstatus, (Trade.closedNotification_eq hs.terms hprice hpnl hreason).trans hn⟩

/-- Only `persist_open_trade` adds to the openings. -/
theorem openings_wrote (hw : q.wrote now db a db')
    (hq : ∀ accountId trade margin, q ≠ .persistOpenTrade accountId trade margin) (id : Uuid) :
    db'.openings id = db.openings id := by
  unfold Db.openings
  cases hold : db.trades.find? id with
  | some r =>
    obtain ⟨r', hr', hs⟩ := Query.wrote_row hw hold
    rw [hr']
    exact congrArg (fun n => [n]) (Trade.openedNotification_eq hs.terms)
  | none =>
    cases hnew : db'.trades.find? id with
    | none => rfl
    | some r' =>
      obtain ⟨accountId, trade, margin, rfl, -⟩ := Query.wrote_none hw hold hnew
      exact absurd rfl (hq accountId trade margin)

/-- A task that has closed a trade asks nothing more. -/
theorem MayAsk.not_closed (hq : (actors i).MayAsk (st i) q) (t : Trade) : st i ≠ .closed t := by
  intro ht
  rw [ht] at hq
  generalize actors i = act at hq
  cases hq

theorem closedBy_update {s : Stage} {id : Uuid} {n : Notification} (hi : ∀ t, st i ≠ .closed t) :
    ClosedBy (Function.update st i s) id n ↔
      (∃ t, s = .closed t ∧ t.id = id ∧ t.closedNotification = some n) ∨ ClosedBy st id n := by
  refine (Function.exists_update_iff st fun _ s => ∃ t, s = .closed t ∧ t.id = id ∧ t.closedNotification = some n).trans
    (or_congr_right ⟨fun ⟨j, _, t, ht⟩ => ⟨j, t, ht⟩, fun ⟨j, t, ht⟩ => ⟨j, ?_, t, ht⟩⟩)
  rintro rfl
  exact hi t ht.1

theorem exits_update {s : Stage} (h : ∀ j t, st j = .closed t → t.closedNotification.isSome)
    (hs : ∀ t, s = .closed t → t.closedNotification.isSome) :
    ∀ j t, Function.update st i s j = .closed t → t.closedNotification.isSome :=
  (Function.forall_update_iff st fun _ s => ∀ t, s = .closed t → t.closedNotification.isSome).mpr ⟨hs, fun j _ => h j⟩

/-- A step of task `i` to a stage at which it has not closed a trade, with no notification of a close. -/
theorem Notified.update {s : Stage} (h : Notified db st) (hi : ∀ t, st i ≠ .closed t) (hs : ∀ t, s ≠ .closed t)
    (hopened : ∀ id, db'.notificationsOf id .tradeOpened = db'.openings id)
    (hclosed : ∀ id, db'.notificationsOf id .tradeClosed = db.notificationsOf id .tradeClosed)
    (htells : ∀ id n, db.Tells id n → db'.Tells id n) : Notified db' (Function.update st i s) := by
  refine ⟨hopened, fun id => ?_, fun id n => ?_, exits_update h.exits fun t ht => absurd ht (hs t)⟩
  · rw [hclosed]
    exact (h.closed id).imp_right fun ⟨n, hn, ht⟩ => ⟨n, hn, htells id n ht⟩
  · rw [hclosed, h.closedBy, closedBy_update hi]
    exact ⟨.inr, fun hor => hor.resolve_left fun ⟨t, ht, _⟩ => hs t ht⟩

/-- A trade is opened. -/
theorem Notified.opens {accountId : Uuid} {trade : Trade} {margin : Decimal} {u : Unit} {s : Stage}
    (h : Notified db st) (hi : ∀ t, st i ≠ .closed t) (hs : ∀ t, s ≠ .closed t)
    (hw : (Query.persistOpenTrade accountId trade margin).wrote now db u db')
    (hn : db'.notifications = trade.openedNotification :: db.notifications) :
    Notified db' (Function.update st i s) := by
  have hns : db'.notifications =
      (Query.persistOpenTrade accountId trade margin).notification.toList ++ db.notifications := hn
  refine h.update hi hs (fun id => ?_) (fun id => ?_) fun id n ht => ht.wrote hw
  · obtain ⟨trades, account, ns, hinsert, -, -, rfl⟩ := hw
    by_cases hid : id = trade.id
    · subst hid
      have hold := h.opened trade.id
      rw [Db.openings, insert_fresh hinsert] at hold
      rw [notificationsOf_append hns, hold, Db.openings]
      simp [Query.notification, Trade.openedNotification, find?_insert hinsert]
    · rw [notificationsOf_same hns, h.opened, Db.openings, Db.openings, find?_insert hinsert, if_neg hid]
      rintro n hn ⟨hkey, -⟩
      cases Option.some.inj hn
      exact hid hkey.symm
  · refine notificationsOf_same hns ?_
    rintro n hn ⟨-, hkind⟩
    cases Option.some.inj hn
    cases hkind

/-- The exit of a trade is told by nothing before its close, and by the notification of the trade as it was read
after it. -/
theorem tells_of_close {accountId : Uuid} {trade : Trade} {price commission sfd margin pnl : Decimal}
    {exitAt : DateTime} {reason : ExitReason} {u : Unit} (hread : ReadTerms db trade)
    (hw : (Query.persistClosedTrade accountId (Trader.closedTrade trade price commission sfd exitAt pnl reason) margin
      pnl price exitAt reason).wrote now db u db') :
    (∀ n, ¬db.Tells trade.id n) ∧ db'.Tells trade.id (trade.exitNotification price pnl reason) := by
  obtain ⟨r, account, ns, hr, hne, -, rfl⟩ := hw
  have hr : db.trades.find? trade.id = some r := hr
  refine ⟨fun n ⟨r', hr', hc, _⟩ => ?_, ?_⟩
  · cases hr.symm.trans hr'
    exact hne hc
  · obtain ⟨r', hr', hterms⟩ := hread
    cases hr.symm.trans hr'
    have hkey : r.id = trade.id := Db.trade_id hr
    have hset := find?_set (v := r.settle price exitAt pnl reason (trade.fees + commission + sfd))
      (by rw [← hkey] at hr; exact hr) trade.id
    refine ⟨_, hset.trans (if_pos hkey.symm), rfl, ?_⟩
    exact congrArg some (Trade.exitNotification_eq hterms price pnl reason)

/-- A close attempt closes the trade that it has read. -/
theorem Notified.closes {accountId : Uuid} {trade : Trade} {price commission sfd margin pnl : Decimal}
    {exitAt : DateTime} {reason : ExitReason} {u : Unit} (h : Notified db st) (hi : ∀ t, st i ≠ .closed t)
    (hread : ReadTerms db trade)
    (hw : (Query.persistClosedTrade accountId (Trader.closedTrade trade price commission sfd exitAt pnl reason) margin
      pnl price exitAt reason).wrote now db u db')
    (hn : db'.notifications = trade.exitNotification price pnl reason :: db.notifications) :
    Notified db' (Function.update st i
      (.closed (Trader.closedTrade trade price commission sfd exitAt pnl reason))) := by
  have hns : db'.notifications = [trade.exitNotification price pnl reason] ++ db.notifications := hn
  obtain ⟨hnot, htells⟩ := tells_of_close hread hw
  have hopenings := openings_wrote hw fun _ _ _ h => Query.noConfusion h
  have hexit : (Trader.closedTrade trade price commission sfd exitAt pnl reason).closedNotification =
      some (trade.exitNotification price pnl reason) := rfl
  refine ⟨fun id => ?_, fun id => ?_, fun id n => ?_, exits_update h.exits ?_⟩
  · rw [notificationsOf_append hns, hopenings, ← h.opened id]
    simp [Trade.exitNotification]
  · by_cases hid : trade.id = id
    · subst hid
      have hnone := (h.closed trade.id).resolve_right fun ⟨n, _, ht⟩ => hnot n ht
      rw [notificationsOf_append hns, hnone]
      exact .inr ⟨_, by simp [Trade.exitNotification], htells⟩
    · rw [notificationsOf_append hns, List.filter_cons_of_neg (by simp [Trade.exitNotification, hid])]
      exact (h.closed id).imp_right fun ⟨n, hn, ht⟩ => ⟨n, hn, ht.wrote hw⟩
  · rw [closedBy_update hi, notificationsOf_append hns, List.mem_append, h.closedBy id]
    refine or_congr_left ?_
    rw [List.mem_filter, List.mem_singleton]
    constructor
    · rintro ⟨rfl, hkey⟩
      exact ⟨_, rfl, of_decide_eq_true (Bool.and_eq_true_iff.mp hkey).1, hexit⟩
    · rintro ⟨t, ht, hkey, hn⟩
      cases ht
      refine ⟨Option.some.inj (hn.symm.trans hexit), ?_⟩
      rw [← Option.some.inj (hexit.symm.trans hn)]
      have hkey : trade.id = id := hkey
      simp [Trade.exitNotification, hkey]
  · rintro t ht
    cases ht
    rw [hexit]
    rfl

theorem Notified.query (h : Notified db st) (hreads : Reads actors db st) (hq : (actors i).MayAsk (st i) q)
    (hw : q.wrote now db a db') (hn : db'.notifications = q.notification.toList ++ db.notifications) :
    Notified db' (Function.update st i ((st i).after q (.ok a))) := by
  have hi := MayAsk.not_closed hq
  generalize ha : actors i = act at hq
  generalize hs : st i = s at hq ⊢
  have quiet : ∀ {s' : Stage}, q.notification = none →
      (∀ accountId trade margin, q ≠ .persistOpenTrade accountId trade margin) → (∀ t, s' ≠ .closed t) →
      Notified db' (Function.update st i s') := by
    intro s' hnone hne hs'
    have hsame (id : Uuid) (kind : NotificationKind) : db'.notificationsOf id kind = db.notificationsOf id kind :=
      notificationsOf_same hn fun n hin => by rw [hnone] at hin; cases hin
    refine h.update hi hs' (fun id => ?_) (fun id => hsame id _) fun id n ht => ht.wrote hw
    rw [hsame, openings_wrote hw hne, h.opened]
  cases hq with
  | openTrade => exact h.opens hi (fun _ h => Stage.noConfusion h) hw hn
  | @close _ _ reason trade price _ _ _ =>
    have hns : db'.notifications =
        trade.exitNotification price (Trader.closePnl trade price) reason :: db.notifications := hn
    exact h.closes hi (hreads.held i trade hs) hw hns
  | account | unlock | overnightFee | sfdFee | swapFee | addFees | reconcile | release =>
    exact quiet rfl (fun _ _ _ h => Query.noConfusion h) fun _ h => Stage.noConfusion h
  | lock | select =>
    refine quiet rfl (fun _ _ _ h => Query.noConfusion h) fun t ht => ?_
    cases a <;> cases ht

theorem Notified.failed {e : Error} (h : Notified db st) (hq : (actors i).MayAsk (st i) q) :
    Notified db (Function.update st i ((st i).after q (.error e))) := by
  have hi := MayAsk.not_closed hq
  refine h.update hi (fun t => ?_) h.opened (fun _ => rfl) fun _ _ ht => ht
  generalize actors i = act at hq
  generalize st i = s at hq ⊢
  cases hq <;> nofun

theorem Notified.leverage (h : Notified db st) (accountId : Uuid) (leverage : Decimal) :
    Notified (setLeverage accountId leverage db) st := by
  obtain ⟨hopened, hclosed, hby, hexits⟩ := h
  have hns : (setLeverage accountId leverage db).notifications = db.notifications := by
    unfold setLeverage
    split <;> rfl
  refine ⟨?_, ?_, ?_, hexits⟩
  · simpa only [Db.notificationsOf, Db.openings, setLeverage_trades, hns] using hopened
  · simpa only [Db.notificationsOf, Db.Tells, setLeverage_trades, hns] using hclosed
  · simpa only [Db.notificationsOf, hns] using hby

end

theorem Notified.begin (h₀ : w₀.db.Fresh) (hn : w₀.db.notifications = []) : Notified w₀.db fun _ => .idle := by
  have hnone (id : Uuid) (kind : NotificationKind) : w₀.db.notificationsOf id kind = [] := by
    rw [Db.notificationsOf, hn]
    rfl
  refine ⟨fun id => ?_, fun id => .inl (hnone id _), fun id n => ?_, fun _ _ hs => Stage.noConfusion hs⟩
  · rw [hnone, Db.openings, h₀.find?]
    rfl
  · rw [hnone]
    exact iff_of_false List.not_mem_nil fun ⟨_, _, hs, _⟩ => Stage.noConfusion hs

theorem Run.Of.notified (h₀ : w₀.db.Fresh) (hn : w₀.db.notifications = []) {h : Run ε} (hv : h.Of E w₀ actors) :
    Notified h.world.db (h.stage actors) := by
  refine History.Valid.invariant (P := fun _ _ _ => True)
    (J := fun h : Run ε => Notified h.world.db (h.stage actors)) ?_ (fun h l c hv _ ih hs _ => ?_) hv
    (History.Steps.of_forall (fun _ _ _ => trivial) h)
  · exact Notified.begin h₀ hn
  rcases Run.Of.step_cases hv hs with ⟨i, q, a, rfl, hq, hw, -⟩ | ⟨i, q, e, rfl, hq, hw⟩ | ⟨j, l, rfl, hw⟩ |
    ⟨hw, hst, -⟩
  · rw [Run.stage_db]
    exact ih.query (Run.Of.reads hv) hq hw (Query.notifies (Run.committed hs))
  · rw [Run.stage_db, History.world_step, hw]
    exact ih.failed hq
  · rw [Run.stage_move, History.world_step, hw]
    exact ih.leverage _ _
  · rw [hst, History.world_step, hw]
    exact ih

/-- In every state that any tasks reach from a fresh database: each trade has exactly one notification of its opening,
and at most one of its closing, which tells the exit that its row has. There is one iff a close attempt has closed the
trade, with that exit, so a trade that was reconciled has none; and a close attempt that returned has its own. -/
theorem notifications_mirror_trades (h₀ : w₀.db.Fresh) (hn : w₀.db.notifications = []) {h : Run ε}
    (hv : h.Of E w₀ actors) :
    (∀ id, h.world.db.notificationsOf id .tradeOpened = h.world.db.openings id ∧
      (h.world.db.notificationsOf id .tradeClosed = [] ∨
        ∃ n, h.world.db.notificationsOf id .tradeClosed = [n] ∧ h.world.db.Tells id n) ∧
      ∀ n, n ∈ h.world.db.notificationsOf id .tradeClosed ↔ ClosedBy (h.stage actors) id n) ∧
    ∀ i t, h.last.thread i = .done (.ok (.closed t)) →
      ∃ n, t.closedNotification = some n ∧ h.world.db.notificationsOf t.id .tradeClosed = [n] := by
  have hnot := hv.notified h₀ hn
  refine ⟨fun id => ⟨hnot.opened id, hnot.closed id, hnot.closedBy id⟩, fun i t hi => ?_⟩
  have hstage : h.stage actors i = .closed t := hv.ended hi
  obtain ⟨n, hexit⟩ := Option.isSome_iff_exists.mp (hnot.exits i t hstage)
  have hmem : n ∈ h.world.db.notificationsOf t.id .tradeClosed :=
    (hnot.closedBy t.id n).mpr ⟨i, t, hstage, rfl, hexit⟩
  rcases hnot.closed t.id with hnil | ⟨m, hm, -⟩
  · rw [hnil] at hmem
    cases hmem
  · rw [hm, List.mem_singleton] at hmem
    exact ⟨n, hexit, by rw [hm, hmem]⟩

theorem sampleSettlement_notified : ∃ n, sampleSettlement.world.db.notificationsOf 7 .tradeClosed = [n] ∧
    sampleSettlement.world.db.Tells 7 n :=
  ((notifications_mirror_trades ⟨rfl, rfl⟩ rfl (Run.play_of _ _ _ _) (h := sampleSettlement)).1 7).2.1.resolve_left
    (by decide +kernel)

/-- A trade that is opened and reconciled. -/
def sampleReconciledTrade : Run Unit :=
  .play anyExchange ⟨sampleDb, (), 0⟩
    (fun i => if i = 0 then .execute (sampleTrader true) sampleSignal else .closeTradeReconciled 7 110 10 .tpHit)
    [.commit 0, .price 0 99 100, .clock 0, .price 0 99 100, .clock 0, .uuid 0 7, .commit 0,
      .clock 1, .commit 1, .commit 1]

example : ((sampleReconciledTrade.world.db.trades.find? 7).any fun r => r.status = .closed) ∧
    (sampleReconciledTrade.world.db.notificationsOf 7 .tradeOpened).length = 1 ∧
    sampleReconciledTrade.world.db.notificationsOf 7 .tradeClosed = [] := by decide +kernel

end AutoTrader
