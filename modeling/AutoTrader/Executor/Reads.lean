import AutoTrader.Executor.Runs

/-!
# What a task has read of a trade

A close attempt and a reconciliation go by the trade as they read it, which may be long before they
persist it. `Reads` is what stays true of it meanwhile: its terms are those of its row. So the margin
that a transaction moves is that of the trade, on the account of the trade (`Reads.moves`).
-/

namespace AutoTrader

open Lib.Table (find?_set find?_insert insert_fresh)

variable {ε : Type} {E : ExchangeModel ε} {actors : Nat → Actor} {w₀ : World ε}

/-- What was read of a trade has the terms of its row. -/
def ReadTerms (db : Db) (t : Trade) : Prop := ∃ r, db.trades.find? t.id = some r ∧ r.terms = t.terms

/-- What the tasks hold was read of the trades. -/
structure Reads (actors : Nat → Actor) (db : Db) (stage : Nat → Stage) : Prop where
  held : ∀ i t, stage i = .holding t → ReadTerms db t
  /-- A close attempt goes only for the trade it was asked to close, on its account. -/
  asked : ∀ i t trader uuid reason, stage i = .holding t → actors i = .closePosition trader uuid reason →
    t.id = uuid ∧ t.accountId = trader.accountId
  selected : ∀ i t, stage i = .selected t → ReadTerms db t
  /-- A reconciliation settles the trade it has selected. -/
  target : ∀ i t tradeId price pnl reason, stage i = .selected t →
    actors i = .closeTradeReconciled tradeId price pnl reason → t.id = tradeId

/-- The margin a query moves is that of the trade, on its account. -/
def Query.movesMargin (db : Db) : Query → Prop
  | .persistOpenTrade accountId trade margin =>
    trade.status = .open ∧ trade.accountId = accountId ∧ margin = trade.margin
  | .persistClosedTrade accountId closed margin _ _ _ _ =>
    ∀ r, db.trades.find? closed.id = some r → r.accountId = accountId ∧ margin = r.margin
  | .closeTradeReconciled tradeId accountId _ _ _ _ margin =>
    ∀ r, db.trades.find? tradeId = some r → r.accountId = accountId ∧ margin = r.margin
  | _ => True

section

variable {now : DateTime} {db db' : Db} {st : Nat → Stage} {i : Nat} {q : Query} {a : q.Ok}

theorem ReadTerms.wrote {t : Trade} (h : ReadTerms db t) (hw : q.wrote now db a db') : ReadTerms db' t := by
  obtain ⟨r, hr, ht⟩ := h
  obtain ⟨r', hr', hs⟩ := Query.wrote_row hw hr
  exact ⟨r', hr', hs.terms.trans ht⟩

/-- What the row of a read trade has of its terms. -/
theorem ReadTerms.row {t : Trade} {r : TradeRow} (h : ReadTerms db t) (hr : db.trades.find? t.id = some r) :
    r.accountId = t.accountId ∧ t.margin = r.margin := by
  obtain ⟨u, hu, ht⟩ := h
  cases Option.some.inj (hr.symm.trans hu)
  exact ⟨Trade.accountId_eq ht, (Trade.margin_eq ht).symm⟩

/-- The margin a task moves is that of the trade: it read the trade with the terms of its row. -/
theorem Reads.moves (h : Reads actors db st) (hq : (actors i).MayAsk (st i) q) : q.movesMargin db := by
  generalize ha : actors i = a at hq
  generalize hs : st i = s at hq
  cases hq with
  | openTrade haccount _ _ hopen _ => exact ⟨hopen, haccount, rfl⟩
  | @close _ _ _ trade _ _ _ _ =>
    intro r hr
    obtain ⟨haccount, hmargin⟩ := (h.held i trade hs).row hr
    exact ⟨haccount.trans (h.asked i trade _ _ _ hs ha).2, hmargin⟩
  | @reconcile tradeId _ _ _ trade _ =>
    intro r hr
    rw [← h.target i trade _ _ _ _ hs ha] at hr
    exact (h.selected i trade hs).row hr
  | _ => trivial

/-- A step of task `i` to stage `s`, given what that stage says of the database after it. -/
theorem Reads.update {s : Stage} (h : Reads actors db st) (hrows : ∀ t, ReadTerms db t → ReadTerms db' t)
    (held : ∀ t, s = .holding t → ReadTerms db' t ∧
      ∀ trader uuid reason, actors i = .closePosition trader uuid reason → t.id = uuid ∧ t.accountId = trader.accountId)
    (selected : ∀ t, s = .selected t → ReadTerms db' t ∧
      ∀ tradeId price pnl reason, actors i = .closeTradeReconciled tradeId price pnl reason → t.id = tradeId) :
    Reads actors db' (Function.update st i s) := by
  have other : ∀ {j u}, j ≠ i → Function.update st i s j = u → st j = u := fun hj hu => by
    rwa [Function.update_of_ne hj] at hu
  have self : ∀ {u}, Function.update st i s i = u → s = u := fun hu => by rwa [Function.update_self] at hu
  refine ⟨fun j t hs => ?_, fun j t trader uuid reason hs => ?_, fun j t hs => ?_,
    fun j t tradeId price pnl reason hs => ?_⟩
  · by_cases hij : j = i
    · subst hij; exact (held t (self hs)).1
    · exact hrows t (h.held j t (other hij hs))
  · by_cases hij : j = i
    · subst hij; exact (held t (self hs)).2 _ _ _
    · exact h.asked j t _ _ _ (other hij hs)
  · by_cases hij : j = i
    · subst hij; exact (selected t (self hs)).1
    · exact hrows t (h.selected j t (other hij hs))
  · by_cases hij : j = i
    · subst hij; exact (selected t (self hs)).2 _ _ _ _
    · exact h.target j t _ _ _ _ (other hij hs)

/-- Whether a task has read a trade that it still goes by. -/
def Stage.reads : Stage → Bool
  | .holding _ | .selected _ => true
  | _ => false

theorem Reads.update_done {s : Stage} (h : Reads actors db st) (hrows : ∀ t, ReadTerms db t → ReadTerms db' t)
    (hs : s.reads = false) : Reads actors db' (Function.update st i s) := by
  refine h.update hrows (fun t ht => ?_) fun t ht => ?_ <;>
    · subst ht; cases hs

theorem Reads.query (h : Reads actors db st) (hq : (actors i).MayAsk (st i) q) (hw : q.wrote now db a db') :
    Reads actors db' (Function.update st i ((st i).after q (.ok a))) := by
  have hrows : ∀ t, ReadTerms db t → ReadTerms db' t := fun _ ht => ht.wrote hw
  generalize ha : actors i = act at hq
  generalize hs : st i = s at hq ⊢
  cases hq with
  | account | openTrade | unlock | close | overnightFee | sfdFee | swapFee | addFees | reconcile | release =>
    exact h.update_done hrows rfl
  | lock =>
    cases a with
    | none => exact h.update_done hrows rfl
    | some lock =>
      refine h.update hrows (fun t ht => ?_) fun t ht => Stage.noConfusion ht
      rcases hw with ⟨r, hr, hl, hlock, rfl⟩ | ⟨hlock, -⟩
      · cases Option.some.inj hlock
        cases ht
        obtain rfl := Db.trade_id hr
        refine ⟨⟨r.startClosing now, ?_, rfl⟩, fun trader uuid reason he => ?_⟩
        · exact (find?_set (v := r.startClosing now) hr _).trans (if_pos rfl)
        · rw [ha] at he
          cases he
          exact ⟨rfl, TradeRow.lockable_account (r := r) hl⟩
      · cases hlock
  | select =>
    cases a with
    | none => exact h.update_done hrows rfl
    | some trade =>
      refine h.update hrows (fun t ht => Stage.noConfusion ht) fun t ht => ?_
      cases ht
      obtain ⟨rfl, hread⟩ := hw
      obtain ⟨r, hr, -, rfl⟩ := hread trade rfl
      obtain rfl := Db.trade_id hr
      refine ⟨⟨r, hr, rfl⟩, fun tradeId price pnl reason he => ?_⟩
      rw [ha] at he
      cases he
      rfl

theorem Reads.failed {e : Error} (h : Reads actors db st) (hq : (actors i).MayAsk (st i) q) :
    Reads actors db (Function.update st i ((st i).after q (.error e))) := by
  generalize actors i = act at hq
  generalize st i = s at hq ⊢
  cases hq <;> exact h.update_done (fun _ ht => ht) rfl

theorem Reads.leverage (h : Reads actors db st) (accountId : Uuid) (leverage : Decimal) :
    Reads actors (setLeverage accountId leverage db) st := by
  obtain ⟨h1, h2, h3, h4⟩ := h
  refine ⟨?_, h2, ?_, h4⟩
  · simpa only [ReadTerms, setLeverage_trades] using h1
  · simpa only [ReadTerms, setLeverage_trades] using h3

end

theorem Reads.begin (db : Db) : Reads actors db fun _ => .idle :=
  ⟨fun _ _ hs => Stage.noConfusion hs, fun _ _ _ _ _ hs => Stage.noConfusion hs, fun _ _ hs => Stage.noConfusion hs,
    fun _ _ _ _ _ _ hs => Stage.noConfusion hs⟩

/-- What the tasks have read stays true in every run. -/
theorem Run.Of.reads {h : Run ε} (hv : h.Of E w₀ actors) : Reads actors h.world.db (h.stage actors) :=
  hv.db_invariant (Reads.begin _) (fun _ _ _ _ _ _ _ h hq hw => h.query hq hw)
    (fun _ _ _ _ _ h hq => h.failed hq) fun _ _ a l h => h.leverage a l

end AutoTrader
