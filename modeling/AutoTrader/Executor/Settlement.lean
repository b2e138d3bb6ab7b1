import AutoTrader.Executor.Play
import AutoTrader.Executor.Reads

/-!
# A trade is settled exactly once

Two ways settle a trade, `persist_closed_trade` after a close attempt and `close_trade_reconciled`, and
several attempts can hold the same trade at once. `Journal` says what the account journal holds of one
trade, and `Settled` is the invariant of a run: the journal of every trade matches its row, and no two
attempts have closed the same trade. `settled_exactly_once` reads the properties of every reachable state
off it.
-/

namespace AutoTrader

open Lib (History Label Config)
open Lib.Table (find?_set find?_insert insert_fresh)

variable {ε : Type} {E : ExchangeModel ε} {actors : Nat → Actor} {w₀ : World ε}

/-! ## The journal of a trade -/

/-- The amounts of the events of one kind that the journal has for a trade, newest first. -/
def Db.amounts (db : Db) (id : Uuid) (kind : EventType) : List Decimal :=
  (db.accountEvents.filter fun e => e.tradeId = id && e.eventType = kind).map (·.amount)

/-- What the journal must have for a trade, from its row: the margin is locked when it is opened and
released when it is closed, with the profit. -/
def expected : EventType → Option TradeRow → List Decimal
  | .marginLock, some r => [-r.margin]
  | .marginRelease, some r => if r.status = .closed then [r.margin] else []
  | .tradeClose, some r => if r.status = .closed then [r.pnlAmount.getD 0] else []
  | _, _ => []

/-- The kinds of events that move the margin of a trade. -/
def EventType.settles : EventType → Bool
  | .marginLock | .marginRelease | .tradeClose => true
  | _ => false

/-- The events of every trade are those its row calls for. -/
def Journal (db : Db) : Prop :=
  ∀ id kind, kind.settles → db.amounts id kind = expected kind (db.trades.find? id)

section

variable {now : DateTime} {db db' : Db}

theorem amounts_cons {e : AccountEvent} (hdb : db'.accountEvents = e :: db.accountEvents) (id : Uuid)
    (kind : EventType) : db'.amounts id kind =
      if e.tradeId = id ∧ e.eventType = kind then e.amount :: db.amounts id kind else db.amounts id kind := by
  simp only [Db.amounts, hdb]
  by_cases h : e.tradeId = id ∧ e.eventType = kind
  · simp [h]
  · rw [if_neg h, List.filter_cons_of_neg (by simpa using h)]

/-- A row step that does not close the row leaves what the journal must have. -/
theorem expected_step {q : Query} {r r' : TradeRow} (h : RowStep now r q r')
    (hc : r'.status = .closed → r.status = .closed)
    (kind : EventType) : expected kind (some r') = expected kind (some r) := by
  have hm : r'.margin = r.margin := Trade.margin_eq h.terms
  by_cases hr : r.status = .closed
  · obtain ⟨hs, -, -, -, hp⟩ := h.closed hr
    cases kind <;> simp only [expected, hm, hs, hr, hp]
  · have hs : ¬ r'.status = .closed := fun hs => hr (hc hs)
    cases kind <;> simp only [expected, hm, hs, hr, ↓reduceIte]

/-- Writing a row that is not closed by it, and no settling event. -/
theorem journal_set {q : Query} {u v : TradeRow} (hj : Journal db) (hu : db.trades.find? v.id = some u)
    (huv : RowStep now u q v) (hc : v.status = .closed → u.status = .closed) (ht : db'.trades = db.trades.set v)
    (he : ∀ id kind, kind.settles → db'.amounts id kind = db.amounts id kind) : Journal db' := by
  intro id kind hk
  rw [he id kind hk, hj id kind hk, ht, find?_set hu]
  by_cases hid : id = v.id
  · rw [if_pos hid, hid, hu, expected_step huv hc]
  · rw [if_neg hid]

/-- Closing the row of a trade with its margin and profit in the journal. -/
theorem journal_settle {id : Uuid} {r : TradeRow} {price pnl fees margin b b' : Decimal} {at' : DateTime}
    {reason : ExitReason} {accountId : Uuid} (hj : Journal db) (hr : db.trades.find? id = some r)
    (hs : r.status ≠ .closed) (hm : margin = r.margin)
    (ht : db'.trades = db.trades.set (r.settle price at' pnl reason fees))
    (he : db'.accountEvents = ⟨accountId, id, .tradeClose, pnl, b, now⟩ ::
      ⟨accountId, id, .marginRelease, margin, b', now⟩ :: db.accountEvents) : Journal db' := by
  intro j kind hk
  have hid : r.id = id := Db.trade_id hr
  have hset := find?_set (v := r.settle price at' pnl reason fees) (w := r) (t := db.trades)
    (by rw [← hid] at hr; exact hr) j
  have hkey : (r.settle price at' pnl reason fees).id = id := hid
  rw [ht, hset, hkey]
  have hold := hj j kind hk
  simp only [Db.amounts, he] at hold ⊢
  by_cases hji : j = id
  · subst hji
    rw [hr] at hold
    cases kind <;>
      simp_all [expected, TradeRow.settle, Trade.margin, EventType.settles]
  · have hne : ¬ id = j := fun h => hji h.symm
    simpa [hji, hne, List.filter_cons] using hold

theorem journal_wrote {q : Query} {a : q.Ok} (hj : Journal db) (hm : q.movesMargin db) (h : q.wrote now db a db') :
    Journal db' := by
  cases q with
  | getAccount _ | listActive =>
    have h : db' = db := h
    rw [h]; exact hj
  | getOpenTradesByAccount _ | selectUnsettled _ => rw [h.1]; exact hj
  | acquireCloseLock tradeId accountId =>
    rcases h with ⟨u, hu, hl, -, rfl⟩ | ⟨-, rfl⟩
    · obtain rfl := Db.trade_id hu
      exact journal_set (v := u.startClosing now) hj hu (.lock hl) nofun rfl fun _ _ _ => rfl
    · exact hj
  | releaseCloseLock tradeId =>
    rcases h with ⟨u, hu, hs, rfl⟩ | ⟨-, rfl⟩
    · obtain rfl := Db.trade_id hu
      exact journal_set (v := u.reopen) hj hu (RowStep.reopen hs : RowStep now u _ _) nofun rfl fun _ _ _ => rfl
    · exact hj
  | addFees id fee =>
    obtain ⟨u, hu, rfl⟩ := h
    rw [← Db.trade_id hu] at hu
    exact journal_set (v := u.charge fee) hj hu (RowStep.charge fee : RowStep now u (.addFees id fee) _)
      (fun h => h) rfl fun _ _ _ => rfl
  | applyOvernightFee _ _ fee | applySfdFee _ _ fee _ | applySwapFee _ _ fee _ =>
    rcases h with rfl | ⟨u, a, k, at', hu, -, -, -, hk, rfl⟩
    · exact hj
    · rw [← Db.trade_id hu] at hu
      refine journal_set (v := u.charge fee) hj hu (RowStep.charge fee : RowStep now u (.addFees u.id fee) _)
        (fun h => h) rfl fun i kind hkind => ?_
      have hne : k ≠ kind := by
        rintro rfl
        obtain ⟨h1, h2, h3⟩ := hk
        cases k <;> simp_all [EventType.settles]
      rw [amounts_cons rfl, if_neg fun h => hne h.2]
  | persistClosedTrade _ _ _ _ _ _ _ =>
    obtain ⟨u, a, ns, hu, hs, -, rfl⟩ := h
    exact journal_settle hj hu hs (hm u hu).2 rfl rfl
  | closeTradeReconciled _ _ _ _ _ _ _ =>
    obtain ⟨u, a, hu, hs, -, rfl⟩ := h
    exact journal_settle hj hu hs (hm u hu).2 rfl rfl
  | persistOpenTrade accountId trade margin =>
    obtain ⟨trades, a, ns, hi, -, -, rfl⟩ := h
    obtain ⟨hopen, -, hmargin⟩ := hm
    intro id kind hk
    rw [find?_insert hi, amounts_cons rfl, hj id kind hk]
    by_cases hid : id = trade.id
    · subst hid
      have hfresh : db.trades.find? trade.id = none := insert_fresh hi
      rw [hfresh, if_pos rfl]
      cases kind <;> simp_all [expected, EventType.settles, Trade.margin]
    · have hne : ¬ trade.id = id := fun h => hid h.symm
      simp [hid, hne]

end

/-! ## The invariant of a run -/

/-- Whether the trade is closed. -/
def Db.closed (db : Db) (id : Uuid) : Prop := ∃ r, db.trades.find? id = some r ∧ r.status = .closed

/-- What holds of the settled trades. -/
structure Settled (actors : Nat → Actor) (db : Db) (stage : Nat → Stage) : Prop where
  reads : Reads actors db stage
  journal : Journal db
  closed : ∀ i t, stage i = .closed t → db.closed t.id
  once : ∀ i j t u, stage i = .closed t → stage j = .closed u → t.id = u.id → i = j

section

variable {now : DateTime} {db db' : Db} {st : Nat → Stage} {i : Nat} {q : Query} {a : q.Ok}

theorem closed_wrote {id : Uuid} (h : db.closed id) (hw : q.wrote now db a db') : db'.closed id := by
  obtain ⟨r, hr, hc⟩ := h
  obtain ⟨r', hr', hs⟩ := Query.wrote_row hw hr
  exact ⟨r', hr', (hs.closed hc).1⟩

theorem closed_of_settle {id : Uuid} {r : TradeRow} {price pnl fees : Decimal} {at' : DateTime}
    {reason : ExitReason} (hr : db.trades.find? id = some r)
    (ht : db'.trades = db.trades.set (r.settle price at' pnl reason fees)) : db'.closed id := by
  obtain rfl := Db.trade_id hr
  exact ⟨r.settle price at' pnl reason fees, by
    rw [ht]; exact (find?_set (v := r.settle price at' pnl reason fees) hr _).trans (if_pos rfl), rfl⟩

/-- A step of task `i` to stage `s`; if that is a stage at which it has closed a trade, it is the first. -/
theorem Settled.update {s : Stage} (h : Settled actors db st) (hreads : Reads actors db' (Function.update st i s))
    (hj : Journal db') (hclosed : ∀ id, db.closed id → db'.closed id)
    (closed : ∀ t, s = .closed t → db'.closed t.id ∧ ∀ j u, st j = .closed u → t.id ≠ u.id) :
    Settled actors db' (Function.update st i s) := by
  have other : ∀ {j u}, j ≠ i → Function.update st i s j = u → st j = u := fun hj hu => by
    rwa [Function.update_of_ne hj] at hu
  have self : ∀ {u}, Function.update st i s i = u → s = u := fun hu => by rwa [Function.update_self] at hu
  refine ⟨hreads, hj, fun j t hs => ?_, fun j k t u ht hu htu => ?_⟩
  · by_cases hij : j = i
    · subst hij; exact (closed t (self hs)).1
    · exact hclosed _ (h.closed j t (other hij hs))
  · by_cases hj : j = i <;> by_cases hk : k = i
    · rw [hj, hk]
    · subst hj
      exact absurd htu ((closed t (self ht)).2 k u (other hk hu))
    · subst hk
      exact absurd htu.symm ((closed u (self hu)).2 j t (other hj ht))
    · exact h.once j k t u (other hj ht) (other hk hu) htu

theorem Settled.query (h : Settled actors db st) (hq : (actors i).MayAsk (st i) q) (hw : q.wrote now db a db') :
    Settled actors db' (Function.update st i ((st i).after q (.ok a))) := by
  have hj : Journal db' := journal_wrote h.journal (h.reads.moves hq) hw
  have hclosed : ∀ id, db.closed id → db'.closed id := fun _ hc => closed_wrote hc hw
  refine h.update (h.reads.query hq hw) hj hclosed fun t ht => ?_
  generalize actors i = act at hq
  generalize st i = s at hq ht
  cases hq with
  | @close _ _ _ trade _ _ _ _ =>
    cases ht
    obtain ⟨r, a, ns, hr, hne, -, rfl⟩ := hw
    refine ⟨closed_of_settle hr rfl, fun j u hu hid => ?_⟩
    obtain ⟨r', hr', hc⟩ := h.closed j u hu
    rw [← hid, hr] at hr'
    exact hne (Option.some.inj hr' ▸ hc)
  | lock => cases a <;> cases ht
  | select => cases a <;> cases ht
  | _ => cases ht

theorem Settled.failed {e : Error} (h : Settled actors db st) (hq : (actors i).MayAsk (st i) q) :
    Settled actors db (Function.update st i ((st i).after q (.error e))) := by
  refine h.update (h.reads.failed hq) h.journal (fun _ hc => hc) fun t ht => ?_
  generalize actors i = act at hq
  generalize st i = s at hq ht
  cases hq <;> cases ht

theorem Settled.leverage (h : Settled actors db st) (accountId : Uuid) (leverage : Decimal) :
    Settled actors (setLeverage accountId leverage db) st := by
  obtain ⟨hr, hj, hc, ho⟩ := h
  refine ⟨hr.leverage accountId leverage, ?_, ?_, ho⟩
  · simpa only [Journal, Db.amounts, setLeverage_trades, setLeverage_accountEvents] using hj
  · simpa only [Db.closed, setLeverage_trades] using hc

end

/-- The database of a fresh installation: any accounts, no trades and an empty journal. -/
structure Db.Fresh (db : Db) : Prop where
  trades : db.trades.rows = []
  accountEvents : db.accountEvents = []

theorem Db.Fresh.find? {db : Db} (h : db.Fresh) (id : Uuid) : db.trades.find? id = none := by
  simp [Lib.Table.find?, h.trades]

theorem Settled.begin (h : w₀.db.Fresh) : Settled actors w₀.db fun _ => .idle := by
  refine ⟨Reads.begin _, fun id kind _ => ?_, fun _ _ hs => Stage.noConfusion hs,
    fun _ _ _ _ hs => Stage.noConfusion hs⟩
  rw [h.find?]
  simp only [Db.amounts, h.accountEvents]
  cases kind <;> rfl

theorem Run.Of.settled {h : Run ε} (hv : h.Of E w₀ actors) (h₀ : w₀.db.Fresh) :
    Settled actors h.world.db (h.stage actors) :=
  hv.db_invariant (Settled.begin h₀) (fun _ _ _ _ _ _ _ h hq hw => h.query hq hw)
    (fun _ _ _ _ _ h hq => h.failed hq) fun _ _ a l h => h.leverage a l

/-- A step keeps the exit of every trade that is closed. -/
def KeepsExits (h : Run ε) (_ : Label Calls Move) (c : Config Calls (World ε) (Except Error Outcome)) : Prop :=
  ∀ id r, h.world.db.trades.find? id = some r → r.status = .closed →
    ∃ r', c.world.db.trades.find? id = some r' ∧ r'.status = .closed ∧ r'.exitPrice = r.exitPrice ∧
      r'.exitAt = r.exitAt ∧ r'.exitReason = r.exitReason ∧ r'.pnlAmount = r.pnlAmount

theorem Run.Of.keepsExits : ∀ {h : Run ε}, h.Of E w₀ actors → h.Steps KeepsExits
  | .start _, _ => trivial
  | .step h l c, hv => by
    refine ⟨Run.Of.keepsExits hv.1, fun id r hr hc => ?_⟩
    rcases Run.Of.step_cases hv.1 hv.2 with ⟨i, q, a, -, -, hw, -⟩ | ⟨i, q, e, -, -, hw⟩ | ⟨j, l, -, hw⟩ | ⟨hw, -⟩
    · obtain ⟨r', hr', hs⟩ := Query.wrote_row hw hr
      exact ⟨r', hr', hs.closed hc⟩
    · exact ⟨r, by rw [hw]; exact hr, hc, rfl, rfl, rfl, rfl⟩
    · refine ⟨r, ?_, hc, rfl, rfl, rfl, rfl⟩
      rw [hw, setLeverage_trades]
      exact hr
    · exact ⟨r, by rw [hw]; exact hr, hc, rfl, rfl, rfl, rfl⟩

/-- In every state that any tasks reach from a fresh database: a trade is closed iff its journal has
exactly one release of its margin and exactly one close, it never has more of either, and what is
released is what was locked; at most one close attempt on it has returned; and no step ever changes the
exit of a closed trade. -/
theorem settled_exactly_once (h₀ : w₀.db.Fresh) {h : Run ε} (hv : h.Of E w₀ actors) :
    (∀ id, (h.world.db.closed id ↔ (h.world.db.amounts id .marginRelease).length = 1 ∧
        (h.world.db.amounts id .tradeClose).length = 1) ∧
      (h.world.db.amounts id .marginRelease).length ≤ 1 ∧ (h.world.db.amounts id .tradeClose).length ≤ 1 ∧
      ∀ margin ∈ h.world.db.amounts id .marginRelease, h.world.db.amounts id .marginLock = [-margin]) ∧
    (∀ i j t u, h.last.thread i = .done (.ok (.closed t)) → h.last.thread j = .done (.ok (.closed u)) →
      t.id = u.id → i = j) ∧
    h.Steps KeepsExits := by
  have hset := hv.settled h₀
  refine ⟨fun id => ?_, fun i j t u hi hj htu => ?_, hv.keepsExits⟩
  · rw [hset.journal id .marginRelease rfl, hset.journal id .tradeClose rfl, hset.journal id .marginLock rfl]
    cases hr : h.world.db.trades.find? id with
    | none => simp [expected, Db.closed, hr]
    | some r => by_cases hc : r.status = .closed <;> simp [expected, Db.closed, hr, hc]
  · exact hset.once i j t u (hv.ended hi) (hv.ended hj) htu

/-- A dry-run trade that is opened and closed. -/
def sampleSettlement : Run Unit :=
  .play anyExchange ⟨sampleDb, (), 0⟩
    (fun i => if i = 0 then .execute (sampleTrader true) sampleSignal else .closePosition (sampleTrader true) 7 .tpHit)
    [.commit 0, .price 0 99 100, .clock 0, .price 0 99 100, .clock 0, .uuid 0 7, .commit 0,
      .commit 1, .price 1 110 111, .clock 1, .commit 1]

theorem sampleSettlement_closed : sampleSettlement.world.db.closed 7 :=
  ((settled_exactly_once ⟨rfl, rfl⟩ (Run.play_of _ _ _ _) (h := sampleSettlement)).1 7).1.mpr (by decide +kernel)

end AutoTrader
