import AutoTrader.App.StartupReconcile
import AutoTrader.Executor.Play
import Mathlib.Algebra.Order.BigOperators.Group.List
import Mathlib.Data.List.Pairwise

/-!
# What a reconciliation leaves

A trade is settled by `reconcileTrade` alone, and no other trade is touched by that (`reconcileTrade_ends`).
So are the trades of a group one after the other, and a group that does not agree with the positions ends
the reconciliation before any of its trades is touched. When it returns, every group is open and agrees with
the positions in total, or is closed and has no position left (`reconciled`).
-/

namespace AutoTrader

open Lib (Prog)
open Lib.Prog (Ends EndsE Runs)

/-! ## Positions of a side -/

/-- The size of the positions on the side of the direction. -/
def sideSize (positions : List ExchangePosition) (direction : Direction) : Decimal :=
  ((positions.filter fun p => 0 < p.size ∧ exchangeSideToDirection p.side = some direction).map
    ExchangePosition.size).sum

/-- There is a position on the opposite side or on an unknown one. -/
def Conflicting (positions : List ExchangePosition) (direction : Direction) : Prop :=
  ∃ p ∈ positions, 0 < p.size ∧ exchangeSideToDirection p.side ≠ some direction

instance (positions : List ExchangePosition) (direction : Direction) : Decidable (Conflicting positions direction) :=
  inferInstanceAs (Decidable (∃ p ∈ positions, _))

theorem sumMatchingExchangeSize_eq (positions : List ExchangePosition) (direction : Direction) :
    sumMatchingExchangeSize positions direction =
      (sideSize positions direction, decide (Conflicting positions direction)) := by
  have fold : ∀ (ps : List ExchangePosition) (acc : Decimal × Bool), ps.foldl (addPosition direction) acc =
      (acc.1 + sideSize ps direction, acc.2 || decide (Conflicting ps direction)) := by
    intro ps
    induction ps with
    | nil =>
      intro acc
      simp [sideSize, Conflicting]
    | cons p ps ih =>
      intro acc
      rw [List.foldl_cons, ih]
      have hconflict : Conflicting (p :: ps) direction ↔
          (0 < p.size ∧ exchangeSideToDirection p.side ≠ some direction) ∨ Conflicting ps direction := by
        simp [Conflicting]
      simp only [addPosition]
      by_cases hsize : p.size ≤ 0
      · have hpos : ¬ 0 < p.size := not_lt.mpr hsize
        simp [hsize, hpos, hconflict, sideSize]
      · have hpos : 0 < p.size := not_le.mp hsize
        rw [if_neg hsize]
        cases hside : exchangeSideToDirection p.side with
        | none => simp [matchesDirection, hside, hpos, hconflict, sideSize]
        | some d =>
          by_cases hd : d = direction
          · simp [matchesDirection, hside, hd, hpos, hconflict, sideSize, add_assoc]
          · simp [matchesDirection, hside, hd, hpos, hconflict, sideSize]
  rw [sumMatchingExchangeSize, fold]
  simp

theorem sideSize_nonneg (positions : List ExchangePosition) (direction : Direction) :
    0 ≤ sideSize positions direction := by
  refine List.sum_nonneg fun size hsize => ?_
  obtain ⟨p, hp, rfl⟩ := List.mem_map.mp hsize
  exact (of_decide_eq_true (List.mem_filter.mp hp).2).1.le

theorem sideSize_eq_zero {positions : List ExchangePosition} {direction : Direction}
    (h : sideSize positions direction = 0) :
    ∀ p ∈ positions, 0 < p.size → exchangeSideToDirection p.side ≠ some direction := by
  intro p hp hpos hside
  have hmem : p ∈ positions.filter fun p => 0 < p.size ∧ exchangeSideToDirection p.side = some direction :=
    List.mem_filter.mpr ⟨hp, decide_eq_true ⟨hpos, hside⟩⟩
  have hle : p.size ≤ sideSize positions direction := by
    refine List.single_le_sum (fun size hsize => ?_) _ (List.mem_map_of_mem hmem)
    obtain ⟨q, hq, rfl⟩ := List.mem_map.mp hsize
    exact (of_decide_eq_true (List.mem_filter.mp hq).2).1.le
  rw [h] at hle
  exact absurd hpos (not_lt.mpr hle)

/-! ## Trades that stay as they are -/

/-- The margins of the trade that were released, latest first. -/
def Db.releases (db : Db) (id : Uuid) : List Decimal :=
  (db.accountEvents.filter fun e => e.eventType = .marginRelease ∧ e.tradeId = id).map AccountEvent.amount

/-- Nothing is changed about trades other than `ids`. -/
def Db.SameOutside (db db' : Db) (ids : List Uuid) : Prop :=
  ∀ id, id ∉ ids → db'.trades.find? id = db.trades.find? id ∧ db'.releases id = db.releases id

namespace Db.SameOutside

variable {db db' db'' : Db} {ids ids' : List Uuid}

theorem refl (db : Db) (ids : List Uuid) : db.SameOutside db ids := fun _ _ => ⟨rfl, rfl⟩

theorem trans (h : db.SameOutside db' ids) (h' : db'.SameOutside db'' ids') : db.SameOutside db'' (ids ++ ids') := by
  intro id hid
  rw [List.mem_append, not_or] at hid
  exact ⟨(h' id hid.2).1.trans (h id hid.1).1, (h' id hid.2).2.trans (h id hid.1).2⟩

theorem mono (h : db.SameOutside db' ids) (hsub : ids ⊆ ids') : db.SameOutside db' ids' :=
  fun id hid => h id fun hmem => hid (hsub hmem)

/-- A write of one row, with events of its trade. -/
theorem set (v : TradeRow) (es : List AccountEvent) {u : TradeRow} (hu : db.trades.find? v.id = some u)
    (ht : db'.trades = db.trades.set v) (he : db'.accountEvents = es ++ db.accountEvents)
    (hes : ∀ e ∈ es, e.tradeId = v.id) : db.SameOutside db' [v.id] := by
  intro id hid
  rw [List.mem_singleton] at hid
  refine ⟨?_, ?_⟩
  · rw [ht, Lib.Table.find?_set hu, if_neg hid]
  · have hnone : es.filter (fun e => e.eventType = .marginRelease ∧ e.tradeId = id) = [] := by
      refine List.filter_eq_nil_iff.mpr fun e he' => ?_
      have hne : ¬ e.tradeId = id := fun h => hid (h.symm.trans (hes e he'))
      simp [hne]
    rw [releases, he, List.filter_append, hnone]
    rfl

end Db.SameOutside

/-- The trade is in the database as it was listed. -/
def Listed (db : Db) (t : Trade) : Prop := ∃ row, db.trades.find? t.id = some row ∧ row.toTrade = t

theorem Listed.eq {db : Db} {t u : Trade} (ht : Listed db t) (hu : Listed db u) (hid : t.id = u.id) : t = u := by
  obtain ⟨row, hrow, rfl⟩ := ht
  obtain ⟨row', hrow', rfl⟩ := hu
  rw [hid, hrow'] at hrow
  rw [Option.some.inj hrow]

theorem Listed.same {db db' : Db} {t : Trade} {ids : List Uuid} (h : Listed db t) (hs : db.SameOutside db' ids)
    (hid : t.id ∉ ids) : Listed db' t := by
  obtain ⟨row, hrow, ht⟩ := h
  exact ⟨row, (hs t.id hid).1.trans hrow, ht⟩

/-- What a reconciliation makes of a trade: it is open, or it is closed and its margin is released once. -/
def IsReconciled (db db' : Db) (exchangeHasMatching : Bool) (t : Trade) : Prop :=
  ∃ row, db'.trades.find? t.id = some row ∧
    if exchangeHasMatching then row.status = .open ∧ db'.releases t.id = db.releases t.id
    else row.status = .closed ∧ db'.releases t.id = t.margin :: db.releases t.id

theorem IsReconciled.same {db db₁ db₂ db' : Db} {matching : Bool} {t : Trade} {ids ids' : List Uuid}
    (h : IsReconciled db₁ db₂ matching t) (hs : db.SameOutside db₁ ids) (hid : t.id ∉ ids)
    (hs' : db₂.SameOutside db' ids') (hid' : t.id ∉ ids') : IsReconciled db db' matching t := by
  obtain ⟨row, hrow, h⟩ := h
  refine ⟨row, (hs' t.id hid').1.trans hrow, ?_⟩
  rw [← (hs t.id hid).2, (hs' t.id hid').2]
  exact h

/-! ## Queries -/

section

variable {positions : Pair → List ExchangePosition} {w : StartupWorld}

theorem ends_trading {α : Type} {x : Exec α} {Q : α → StartupWorld → Prop} {E : Error → StartupWorld → Prop}
    (h : EndsE (tradingHandler positions) w x Q E) : EndsE (startupHandler positions) w (trading x) Q E := by
  refine Ends.trans_of (K := startupHandler positions) (fun s c r s' hr => ?_) h
  obtain ⟨r', s₁, hr, rfl, rfl⟩ := hr
  exact hr

theorem ends_asks {α : Type} {x : Prog Calls α} {Q : α → StartupWorld → Prop}
    (h : Ends (tradingHandler positions) w x Q) : Ends (startupHandler positions) w (asks x) Q := by
  refine Ends.trans_of (K := startupHandler positions) (fun s c r s' hr => ?_) h
  obtain ⟨r', s₁, hr, rfl, rfl⟩ := hr
  exact hr

theorem ends_query {q : Query} {Q : q.Ok → StartupWorld → Prop} {E : Error → StartupWorld → Prop}
    (hok : ∀ now a db, q.tx.run now w.db = .ok (a, db) → Q a { w with db }) (herr : ∀ e, E e w) :
    EndsE (tradingHandler positions) w (query q) Q E := by
  refine Ends.perform (H := tradingHandler positions) fun r w' hr => ?_
  obtain ⟨now, db, ha, rfl⟩ := hr
  cases r with
  | ok a => exact hok now a db ha
  | error e =>
    have hdb : db = w.db := ha
    rw [hdb]
    exact herr e

/-- A quiet call of the executor leaves the database as it is. -/
theorem quiet_handler {c : Call} (hc : c.quiet) {r : c.Ret} {w' : StartupWorld}
    (h : tradingHandler positions w c r w') : w' = w := by
  cases c with
  | db q => exact hc.elim
  | api c =>
    cases c with
    | getPositions pair =>
      cases r with
      | ok ps => exact h.2
      | error e => exact h
    | _ => exact h
  | _ => exact h

theorem ends_quiet {α : Type} {x : Prog Calls α} {Q : α → StartupWorld → Prop} (hx : Lib.Prog.Only Call.quiet x)
    (h : ∀ a, Q a w) : Ends (startupHandler positions) w (asks x) Q := by
  have quiet : ∀ {x : Prog Calls α}, Lib.Prog.Only Call.quiet x → Ends (tradingHandler positions) w x Q := by
    intro x
    induction x with
    | done a => exact fun _ => h a
    | call c k ih =>
      intro hx r w' hr
      rw [quiet_handler hx.1 hr]
      exact ih r (hx.2 r)
  exact ends_asks (quiet hx)

theorem addFees_ends (id : Uuid) (feeDelta : Decimal) :
    EndsE (startupHandler positions) w (trading (query (.addFees id feeDelta)))
      (fun _ w' => w.db.SameOutside w'.db [id] ∧ ∃ row, w.db.trades.find? id = some row ∧
        w'.db.trades.find? id = some (row.charge feeDelta) ∧ w'.db.releases id = w.db.releases id)
      fun _ w' => w.db.SameOutside w'.db [id] := by
  refine ends_trading (ends_query (fun now a db h => ?_) fun _ => .refl _ _)
  obtain ⟨row, hrow, rfl⟩ := addFees_ok h
  have hid : row.id = id := Db.trade_id hrow
  have hrow' : w.db.trades.find? (row.charge feeDelta).id = some row := by rw [← hid] at hrow; exact hrow
  refine ⟨hid ▸ Db.SameOutside.set (row.charge feeDelta) [] hrow' rfl rfl (List.forall_mem_nil _), row, hrow, ?_, rfl⟩
  show (w.db.trades.set (row.charge feeDelta)).find? id = _
  rw [Lib.Table.find?_set hrow']
  exact if_pos hid.symm

theorem releaseCloseLock_ends (t : Trade) (ht : Listed w.db t) (hclosing : t.status = .closing) :
    EndsE (startupHandler positions) w (trading (query (.releaseCloseLock t.id)))
      (fun _ w' => w.db.SameOutside w'.db [t.id] ∧ IsReconciled w.db w'.db true t)
      fun _ w' => w.db.SameOutside w'.db [t.id] := by
  refine ends_trading (ends_query (fun now a db h => ?_) fun _ => .refl _ _)
  obtain ⟨row, hrow, rfl⟩ := ht
  rcases releaseCloseLock_ok h with ⟨row', hrow', -, rfl⟩ | ⟨hother, -⟩
  · obtain rfl := Option.some.inj (hrow.symm.trans hrow')
    have hset : w.db.trades.find? row.reopen.id = some row := hrow
    refine ⟨Db.SameOutside.set row.reopen [] hset rfl rfl (List.forall_mem_nil _), row.reopen, ?_, rfl, rfl⟩
    show (w.db.trades.set row.reopen).find? row.id = _
    rw [Lib.Table.find?_set hset]
    exact if_pos rfl
  · exact absurd hclosing (hother row hrow)

theorem closeTradeReconciled_ends (id : Uuid) (exitPrice pnl : Decimal) (exitReason : ExitReason) :
    EndsE (startupHandler positions) w (trading (closeTradeReconciled id exitPrice pnl exitReason))
      (fun _ w' => w.db.SameOutside w'.db [id] ∧ ∃ row row', w.db.trades.find? id = some row ∧
        w'.db.trades.find? id = some row' ∧ row'.status = .closed ∧
        w'.db.releases id = row.margin :: w.db.releases id)
      fun _ w' => w.db.SameOutside w'.db [id] := by
  refine ends_trading (EndsE.bindLift (Ends.perform (H := tradingHandler positions) fun exitAt w' hw => ?_))
  have hw : w' = w := hw
  rw [hw]
  refine EndsE.bind (ends_query (fun now o db h => ?_) fun _ => .refl _ _)
  obtain ⟨rfl, hselected⟩ := selectUnsettled_ok h
  cases o with
  | none => exact EndsE.throw (.refl _ _)
  | some trade =>
    obtain ⟨row, hrow, -, rfl⟩ := hselected trade rfl
    refine ends_query (fun now a db h => ?_) fun _ => .refl _ _
    obtain ⟨row', account, hrow', -, -, rfl⟩ := closeTradeReconciledTx_ok h
    obtain rfl := Option.some.inj (hrow.symm.trans hrow')
    have hid : row.id = id := Db.trade_id hrow
    have hset : w.db.trades.find? (row.settle exitPrice exitAt pnl exitReason row.fees).id = some row := by
      rw [← hid] at hrow
      exact hrow
    refine ⟨?_, row, row.settle exitPrice exitAt pnl exitReason row.fees, hrow, ?_, rfl, ?_⟩
    · rw [← hid]
      refine Db.SameOutside.set (row.settle exitPrice exitAt pnl exitReason row.fees) [_, _] hset rfl rfl ?_
      simp [TradeRow.settle]
    · show (w.db.trades.set (row.settle exitPrice exitAt pnl exitReason row.fees)).find? id = _
      rw [Lib.Table.find?_set hset]
      exact if_pos hid.symm
    · simp only [Db.releases, List.filter_cons, reduceCtorEq, false_and, decide_false, Bool.false_eq_true, ↓reduceIte,
        true_and, decide_true, List.map_cons]
      rfl

/-! ## One trade -/

theorem backfill_ends (trade : Trade) (pnl : Decimal) :
    EndsE (startupHandler positions) w (backfillDailySummaryForReconciledClose trade pnl)
      (fun _ w' => w'.db = w.db) fun _ w' => w'.db = w.db := by
  refine EndsE.bindLift (ends_quiet quiet_utcNow fun now => ?_)
  refine EndsE.bind (Ends.perform (H := startupHandler positions) fun r w₁ hr => ?_)
  cases r with
  | error e =>
    have hw : w₁ = w := hr
    show w₁.db = w.db
    rw [hw]
  | ok live =>
    have hw : w₁ = w := hr.2
    rw [hw]
    refine EndsE.bindLift (Ends.perform (H := startupHandler positions) fun r w₂ hr => EndsE.pure ?_)
    cases r with
    | error e =>
      have hw₂ : w₂ = w := hr
      rw [hw₂]
    | ok u =>
      have hw₂ : w₂ = { w with summaries := _ } := hr
      rw [hw₂]

/-- A close of a row that has the margin of the trade. -/
theorem settle_ends {t : Trade} {row : TradeRow} (hrow : w.db.trades.find? t.id = some row)
    (hmargin : row.margin = t.margin) (exitPrice pnl : Decimal) (exitReason : ExitReason) :
    EndsE (startupHandler positions) w
      (trading (closeTradeReconciled t.id exitPrice pnl exitReason) >>= fun _ =>
        backfillDailySummaryForReconciledClose t pnl)
      (fun _ w' => w.db.SameOutside w'.db [t.id] ∧ IsReconciled w.db w'.db false t)
      fun _ w' => w.db.SameOutside w'.db [t.id] := by
  refine EndsE.bind ((closeTradeReconciled_ends t.id exitPrice pnl exitReason).mono (fun _ w₁ h₁ => ?_)
    fun _ _ h => h)
  obtain ⟨hsame, row', closed, hrow', hclosed, hstatus, hreleases⟩ := h₁
  obtain rfl := Option.some.inj (hrow.symm.trans hrow')
  have hsettled : IsReconciled w.db w₁.db false t := ⟨closed, hclosed, hstatus, by rw [hreleases, hmargin]⟩
  refine (backfill_ends t pnl).mono (fun _ w₂ h₂ => ?_) fun _ w₂ h₂ => ?_
  · rw [h₂]
    exact ⟨hsame, hsettled⟩
  · rw [h₂]
    exact hsame

theorem closeReconciledWith_ends {t : Trade} (ht : Listed w.db t) (exitPrice : Decimal) (exitReason : ExitReason)
    (extraFees : Decimal) :
    EndsE (startupHandler positions) w (closeReconciledWith t exitPrice exitReason extraFees)
      (fun _ w' => w.db.SameOutside w'.db [t.id] ∧ IsReconciled w.db w'.db false t)
      fun _ w' => w.db.SameOutside w'.db [t.id] := by
  obtain ⟨row, hrow, hterms⟩ := ht
  simp only [closeReconciledWith]
  split
  · refine EndsE.bind ((addFees_ends t.id extraFees).mono (fun _ w₁ h₁ => ?_) fun _ _ h => h)
    obtain ⟨hsame, row', hrow', hcharged, hreleases⟩ := h₁
    obtain rfl := Option.some.inj (hrow.symm.trans hrow')
    have htwice : ∀ {db : Db}, w₁.db.SameOutside db [t.id] → w.db.SameOutside db [t.id] :=
      fun h => (hsame.trans h).mono (by simp)
    refine (settle_ends hcharged (by rw [← hterms]; rfl) _ _ _).mono (fun _ w₂ h₂ => ?_) fun _ _ h => htwice h
    obtain ⟨hsame₂, closed, hclosed, hstatus, hreleases₂⟩ := h₂
    exact ⟨htwice hsame₂, closed, hclosed, hstatus, by rw [hreleases₂, hreleases]⟩
  · exact settle_ends hrow (by rw [← hterms]) _ _ _

theorem forceClose_ends {t : Trade} (ht : Listed w.db t) :
    EndsE (startupHandler positions) w (forceCloseAtBestEffortPrice t)
      (fun _ w' => w.db.SameOutside w'.db [t.id] ∧ IsReconciled w.db w'.db false t)
      fun _ w' => w.db.SameOutside w'.db [t.id] := by
  refine EndsE.bindLift ?_
  refine Ends.bind (ends_quiet (Lib.Prog.Only.perform (I := Calls) trivial) fun tick => ?_)
  rcases tick with _ | ⟨bid, ask⟩ <;> exact closeReconciledWith_ends ht _ _ _

theorem reconcileOpenOrphan_ends {t : Trade} (ht : Listed w.db t) :
    EndsE (startupHandler positions) w (reconcileOpenOrphan t)
      (fun _ w' => w.db.SameOutside w'.db [t.id] ∧ IsReconciled w.db w'.db false t)
      fun _ w' => w.db.SameOutside w'.db [t.id] := by
  have hfill : Ends (startupHandler positions) w (stopExecutedFill t) fun _ w' => w' = w := by
    simp only [stopExecutedFill]
    split
    · exact rfl
    · refine Ends.bind (ends_quiet (quiet_api _) fun r => ?_)
      split <;> exact rfl
  refine EndsE.bindLift (hfill.mono fun fill w' hw => ?_)
  rw [hw]
  cases fill with
  | none => exact forceClose_ends ht
  | some fill => exact closeReconciledWith_ends ht _ _ _

theorem reconcileOpenMatching_ends (scope : AccountScope) {t : Trade} :
    EndsE (startupHandler positions) w (reconcileOpenMatching scope t) (fun _ w' => w' = w) fun _ w' => w' = w := by
  have halert : ∀ stopId, Ends (startupHandler positions) w (alertIfProtectiveStopIsGone scope t stopId)
      fun _ w' => w' = w := by
    intro stopId
    refine Ends.bind (ends_quiet (quiet_api _) fun r => ?_)
    split
    · refine Ends.perform (H := startupHandler positions) fun r w' hr => ?_
      cases r <;> exact hr
    · exact rfl
  simp only [reconcileOpenMatching]
  split
  · rename_i stopId _
    exact EndsE.lift (halert stopId)
  · exact EndsE.pure rfl

/-- A trade is settled, and nothing is changed about another one; nor is it when the reconciliation fails. -/
theorem reconcileTrade_ends (scope : AccountScope) {t : Trade} (ht : Listed w.db t) (exchangeHasMatching : Bool) :
    EndsE (startupHandler positions) w (reconcileTrade scope t exchangeHasMatching)
      (fun _ w' => w.db.SameOutside w'.db [t.id] ∧ IsReconciled w.db w'.db exchangeHasMatching t)
      fun _ w' => w.db.SameOutside w'.db [t.id] := by
  simp only [reconcileTrade]
  split
  · rename_i hopen
    refine (reconcileOpenMatching_ends scope).mono (fun _ w' hw => ?_) fun _ w' hw => ?_
    · obtain ⟨row, hrow, hrowt⟩ := ht
      rw [hw]
      exact ⟨.refl _ _, row, hrow, (congrArg Trade.status hrowt).trans hopen, rfl⟩
    · rw [hw]
      exact .refl _ _
  · exact reconcileOpenOrphan_ends ht
  · rename_i hclosing
    exact releaseCloseLock_ends t ht hclosing
  · exact forceClose_ends ht
  · exact EndsE.throw (.refl _ _)

/-! ## Groups -/

theorem reconcileTrades_ends (scope : AccountScope) (matching : Bool) : ∀ (ts : List Trade) {w : StartupWorld},
    (ts.map Trade.id).Nodup → (∀ t ∈ ts, Listed w.db t) →
      EndsE (startupHandler positions) w (reconcileTrades scope matching ts)
        (fun _ w' => w.db.SameOutside w'.db (ts.map Trade.id) ∧ ∀ t ∈ ts, IsReconciled w.db w'.db matching t)
        fun _ w' => w.db.SameOutside w'.db (ts.map Trade.id)
  | [], w, _, _ => EndsE.pure ⟨.refl _ _, List.forall_mem_nil _⟩
  | t :: ts, w, hids, hlisted => by
    rw [List.map_cons, List.nodup_cons] at hids
    have hother : ∀ u ∈ ts, u.id ∉ [t.id] := by
      intro u hu hmem
      rw [List.mem_singleton] at hmem
      exact hids.1 (hmem ▸ List.mem_map_of_mem hu)
    refine EndsE.bind ((reconcileTrade_ends scope (hlisted t List.mem_cons_self) matching).mono (fun _ w₁ h₁ => ?_)
      fun _ _ h => h.mono (by simp))
    obtain ⟨hsame₁, hsettled₁⟩ := h₁
    have hlisted₁ : ∀ u ∈ ts, Listed w₁.db u := fun u hu =>
      (hlisted u (List.mem_cons_of_mem _ hu)).same hsame₁ (hother u hu)
    refine (reconcileTrades_ends scope matching ts hids.2 hlisted₁).mono (fun _ w₂ h₂ => ?_)
      fun _ w₂ h₂ => hsame₁.trans h₂
    obtain ⟨hsame₂, hsettled₂⟩ := h₂
    refine ⟨hsame₁.trans hsame₂, List.forall_mem_cons.mpr ⟨?_, fun u hu => ?_⟩⟩
    · exact hsettled₁.same (.refl _ []) (by simp) hsame₂ hids.1
    · exact (hsettled₂ u hu).same hsame₁ (hother u hu) (.refl _ []) (by simp)

/-- The group agrees with the positions of its pair, or there are none. -/
def Accepted (positions : Pair → List ExchangePosition) (g : TradeGroup) : Prop :=
  ¬ Conflicting (positions g.1.1) g.1.2 ∧
    (0 < sideSize (positions g.1.1) g.1.2 → sideSize (positions g.1.1) g.1.2 = g.2.1)

instance (g : TradeGroup) : Decidable (Accepted positions g) := inferInstanceAs (Decidable (_ ∧ _))

theorem rejectAggregateMismatch_eq (positions : Pair → List ExchangePosition) (name : String) (g : TradeGroup) :
    (∃ e, rejectAggregateMismatch name g.1.1 g.1.2 g.2.1 (sideSize (positions g.1.1) g.1.2)
      (decide (Conflicting (positions g.1.1) g.1.2)) = .error e) ∧ ¬ Accepted positions g ∨
    rejectAggregateMismatch name g.1.1 g.1.2 g.2.1 (sideSize (positions g.1.1) g.1.2)
      (decide (Conflicting (positions g.1.1) g.1.2)) = .ok () ∧ Accepted positions g := by
  simp only [rejectAggregateMismatch, decide_eq_true_eq]
  split
  · rename_i hconflict
    exact .inl ⟨⟨_, rfl⟩, fun h => h.1 hconflict⟩
  · rename_i hconflict
    split
    · rename_i hsize
      exact .inl ⟨⟨_, rfl⟩, fun h => hsize.2 (h.2 hsize.1)⟩
    · rename_i hsize
      refine .inr ⟨rfl, hconflict, fun hpos => ?_⟩
      by_contra hne
      exact hsize ⟨hpos, hne⟩

/-- The trades of the groups that are accepted. -/
def touched (positions : Pair → List ExchangePosition) (gs : List TradeGroup) : List Uuid :=
  (gs.filter fun g => Accepted positions g).flatMap fun g => g.2.2.map Trade.id

theorem touched_cons {g : TradeGroup} {gs : List TradeGroup} (h : Accepted positions g) :
    touched positions (g :: gs) = g.2.2.map Trade.id ++ touched positions gs := by
  simp [touched, h]

/-- No trade is in two groups. -/
def TradesApart (g g' : TradeGroup) : Prop := ∀ t ∈ g.2.2, ∀ t' ∈ g'.2.2, t.id ≠ t'.id

theorem reconcileGroups_ends (scope : AccountScope) {table : List (Pair × List ExchangePosition)} :
    ∀ (gs : List TradeGroup) {w : StartupWorld}, gs.Pairwise TradesApart →
      (∀ g ∈ gs, table.lookup g.1.1 = some (positions g.1.1) ∧ (g.2.2.map Trade.id).Nodup ∧
        ∀ t ∈ g.2.2, Listed w.db t) →
      EndsE (startupHandler positions) w (reconcileGroups scope table gs)
        (fun _ w' => w.db.SameOutside w'.db (touched positions gs) ∧ ∀ g ∈ gs, Accepted positions g ∧
          ∀ t ∈ g.2.2, IsReconciled w.db w'.db (0 < sideSize (positions g.1.1) g.1.2) t)
        fun _ w' => w.db.SameOutside w'.db (touched positions gs)
  | [], w, _, _ => EndsE.pure ⟨.refl _ _, List.forall_mem_nil _⟩
  | ((pair, direction), total, ts) :: gs, w, hapart, hgs => by
    rw [List.pairwise_cons] at hapart
    obtain ⟨⟨htable, hids, hlisted⟩, hgs⟩ := List.forall_mem_cons.mp hgs
    simp only [reconcileGroups, htable, Option.getD_some, sumMatchingExchangeSize_eq]
    rcases rejectAggregateMismatch_eq positions scope.name ((pair, direction), total, ts) with
      ⟨⟨e, he⟩, -⟩ | ⟨hok, haccepted⟩
    · rw [he]
      exact EndsE.throw (.refl _ _)
    · rw [hok]
      have htouched : touched positions (((pair, direction), total, ts) :: gs) =
          ts.map Trade.id ++ touched positions gs := touched_cons haccepted
      rw [htouched]
      have hother : ∀ g ∈ gs, ∀ t ∈ g.2.2, t.id ∉ ts.map Trade.id := by
        intro g hg t ht hmem
        obtain ⟨u, hu, hid⟩ := List.mem_map.mp hmem
        exact hapart.1 g hg u hu t ht hid
      have hlater : ∀ t ∈ ts, t.id ∉ touched positions gs := by
        intro t ht hmem
        obtain ⟨g, hg, hid⟩ := List.mem_flatMap.mp hmem
        obtain ⟨u, hu, hid⟩ := List.mem_map.mp hid
        exact hapart.1 g (List.mem_of_mem_filter hg) t ht u hu hid.symm
      refine EndsE.bind ((reconcileTrades_ends scope _ ts hids hlisted).mono (fun _ w₁ h₁ => ?_)
        fun _ _ h => h.mono (List.subset_append_left _ _))
      obtain ⟨hsame₁, hsettled₁⟩ := h₁
      have hgs₁ : ∀ g ∈ gs, table.lookup g.1.1 = some (positions g.1.1) ∧ (g.2.2.map Trade.id).Nodup ∧
          ∀ t ∈ g.2.2, Listed w₁.db t := fun g hg =>
        ⟨(hgs g hg).1, (hgs g hg).2.1, fun t ht => ((hgs g hg).2.2 t ht).same hsame₁ (hother g hg t ht)⟩
      refine (reconcileGroups_ends scope gs hapart.2 hgs₁).mono (fun _ w₂ h₂ => ?_) fun _ w₂ h₂ => hsame₁.trans h₂
      obtain ⟨hsame₂, hsettled₂⟩ := h₂
      refine ⟨hsame₁.trans hsame₂, List.forall_mem_cons.mpr ⟨⟨haccepted, fun t ht => ?_⟩, fun g hg => ?_⟩⟩
      · exact (hsettled₁ t ht).same (.refl _ []) (by simp) hsame₂ (hlater t ht)
      · refine ⟨(hsettled₂ g hg).1, fun t ht => ?_⟩
        exact ((hsettled₂ g hg).2 t ht).same hsame₁ (hother g hg t ht) (.refl _ []) (by simp)

/-! ## One account -/

theorem getPositionsWithRetry_ends (pair : Pair) : ∀ (attempts : Nat) (lastErr : Option ApiError),
    Ends (startupHandler positions) w (getPositionsWithRetry pair attempts lastErr) fun r w' =>
      w' = w ∧ ∀ ps, r = .ok ps → ps = positions pair
  | 0, _ => ⟨rfl, fun _ h => by cases h⟩
  | attempts + 1, lastErr => by
    refine Ends.bind (ends_asks (Ends.perform (H := tradingHandler positions) fun r w' hr => ?_))
    cases r with
    | ok ps =>
      obtain ⟨hps, hw⟩ : ps = positions pair ∧ w' = w := hr
      exact ⟨hw, fun ps' h => by rw [← Except.ok.inj h, hps]⟩
    | error e =>
      have hw : w' = w := hr
      rw [hw]
      exact getPositionsWithRetry_ends pair attempts (some e)

theorem fetchExchangePositions_ends (name : String) : ∀ pairs : List Pair,
    EndsE (startupHandler positions) w (fetchExchangePositions name pairs)
      (fun ps w' => w' = w ∧ ps = pairs.map fun pair => (pair, positions pair)) fun _ w' => w' = w
  | [] => EndsE.pure ⟨rfl, rfl⟩
  | pair :: pairs => by
    refine EndsE.bindLift ((getPositionsWithRetry_ends pair _ _).mono fun r w' h => ?_)
    obtain ⟨hw, hps⟩ := h
    rw [hw]
    cases r with
    | error e => exact EndsE.throw rfl
    | ok ps =>
      refine EndsE.bind ((fetchExchangePositions_ends name pairs).mono (fun rest w₂ h₂ => ?_) fun _ _ h => h)
      obtain ⟨hw₂, hrest⟩ := h₂
      exact EndsE.pure ⟨hw₂, by rw [hps ps rfl, hrest]; rfl⟩

end

theorem lookup_positions {positions : Pair → List ExchangePosition} : ∀ {pairs : List Pair} {pair : Pair},
    pair ∈ pairs → (pairs.map fun pair => (pair, positions pair)).lookup pair = some (positions pair)
  | p :: pairs, pair, h => by
    rw [List.map_cons, List.lookup_cons]
    by_cases hp : pair = p
    · simp [hp]
    · have hne : (pair == p) = false := beq_false_of_ne hp
      rw [hne]
      exact lookup_positions ((List.mem_cons.mp h).resolve_left hp)

/-- The unsettled trades of an account in a pair and a direction. -/
def Db.sideOf (db : Db) (accountId : Uuid) (pair : Pair) (direction : Direction) : List Trade :=
  (db.trades.rows.filter fun r => r.accountId = accountId ∧ r.status.unsettled ∧ r.pair = pair ∧
    r.direction = direction).map TradeRow.toTrade

section

variable {db : Db} {accountId : Uuid}

theorem listOpenOrClosing_perm (db : Db) (accountId : Uuid) : (listOpenOrClosingByAccount db accountId).Perm
    ((db.trades.rows.filter fun r => r.accountId = accountId ∧ r.status.unsettled).map TradeRow.toTrade) :=
  List.perm_insertionSort _ _

theorem listed_of_mem {t : Trade} (h : t ∈ listOpenOrClosingByAccount db accountId) : Listed db t := by
  obtain ⟨row, hrow, rfl⟩ := List.mem_map.mp ((listOpenOrClosing_perm db accountId).mem_iff.mp h)
  exact ⟨row, Lib.Table.mem_iff_find?.mp (List.mem_of_mem_filter hrow), rfl⟩

theorem listOpenOrClosing_nodup (db : Db) (accountId : Uuid) :
    ((listOpenOrClosingByAccount db accountId).map Trade.id).Nodup := by
  rw [((listOpenOrClosing_perm db accountId).map Trade.id).nodup_iff, List.map_map]
  exact (List.filter_sublist.map fun r : TradeRow => r.id).nodup db.trades.nodup

/-- The trades of a group are those of its pair and direction. -/
theorem sideOf_perm (db : Db) (accountId : Uuid) (pair : Pair) (direction : Direction) :
    ((listOpenOrClosingByAccount db accountId).filter fun t => (t.pair, t.direction) = (pair, direction)).Perm
      (db.sideOf accountId pair direction) := by
  refine ((listOpenOrClosing_perm db accountId).filter _).trans (List.Perm.of_eq ?_)
  rw [List.filter_map, List.filter_filter]
  refine congrArg _ (List.filter_congr fun r _ => ?_)
  simp only [Function.comp, Prod.mk.injEq, Bool.decide_and, Bool.decide_eq_true]
  ac_rfl

theorem mem_groups {ts : List Trade} {g : TradeGroup} (h : g ∈ groupTradesForAggregateComparison ts) :
    g.2.2 = ts.filter (fun t => (t.pair, t.direction) = g.1) ∧ g.2.2 ≠ [] ∧
      g.2.1 = (g.2.2.map Trade.quantity).sum := by
  obtain ⟨⟨key, trades⟩, hmem, rfl⟩ := List.mem_map.mp h
  obtain ⟨htrades, hne⟩ := Lib.mem_groupBy_iff.mp hmem
  exact ⟨htrades, hne, rfl⟩

theorem groups_mem (ts : List Trade) {key : Pair × Direction}
    (h : ts.filter (fun t => (t.pair, t.direction) = key) ≠ []) :
    (key, ((ts.filter fun t => (t.pair, t.direction) = key).map Trade.quantity).sum,
      ts.filter fun t => (t.pair, t.direction) = key) ∈ groupTradesForAggregateComparison ts :=
  List.mem_map.mpr ⟨_, Lib.mem_groupBy_iff.mpr ⟨rfl, h⟩, rfl⟩

theorem groups_apart (db : Db) (accountId : Uuid) :
    (groupTradesForAggregateComparison (listOpenOrClosingByAccount db accountId)).Pairwise TradesApart := by
  have hkeys := (@Lib.grouped_groupBy _ _ _ (fun t : Trade => (t.pair, t.direction))
    (listOpenOrClosingByAccount db accountId)).nodup
  have hpairwise : (groupTradesForAggregateComparison (listOpenOrClosingByAccount db accountId)).Pairwise
      fun g g' => g.1 ≠ g'.1 := by
    rw [groupTradesForAggregateComparison, List.pairwise_map]
    exact List.pairwise_map.mp hkeys
  refine hpairwise.imp_of_mem fun {g g'} hg hg' hne t ht t' ht' hid => hne ?_
  rw [(mem_groups hg).1, List.mem_filter, decide_eq_true_eq] at ht
  rw [(mem_groups hg').1, List.mem_filter, decide_eq_true_eq] at ht'
  have heq : t = t' := (listed_of_mem ht.1).eq (listed_of_mem ht'.1) hid
  rw [← ht.2, ← ht'.2, heq]

end

theorem TradesApart.symm {g g' : TradeGroup} (h : TradesApart g g') : TradesApart g' g :=
  fun t ht t' ht' hid => h t' ht' t ht hid.symm

instance : Std.Symm TradesApart := ⟨fun _ _ => TradesApart.symm⟩

theorem reconcileOneAccount_ends {order : List TradeGroup → List TradeGroup} (horder : ∀ gs, (order gs).Perm gs)
    (scope : AccountScope) {positions : Pair → List ExchangePosition} {w : StartupWorld} :
    let groups := order (groupTradesForAggregateComparison (listOpenOrClosingByAccount w.db scope.account.id))
    EndsE (startupHandler positions) w (reconcileOneAccount order scope)
      (fun _ w' => ∀ g ∈ groups, Accepted positions g ∧
        ∀ t ∈ g.2.2, IsReconciled w.db w'.db (0 < sideSize (positions g.1.1) g.1.2) t)
      fun _ w' => w.db.SameOutside w'.db (touched positions groups) := by
  intro groups
  refine EndsE.bind (Ends.perform (H := startupHandler positions) fun r w₁ hr => ?_)
  cases r with
  | error e =>
    have hw : w₁ = w := hr
    show w.db.SameOutside w₁.db _
    rw [hw]
    exact .refl _ _
  | ok dbTrades =>
    obtain ⟨rfl, hw⟩ : dbTrades = listOpenOrClosingByAccount w.db scope.account.id ∧ w₁ = w := hr
    rw [hw]
    have hgroups : ∀ g ∈ groups, g ∈ groupTradesForAggregateComparison
        (listOpenOrClosingByAccount w.db scope.account.id) := fun g hg => (horder _).mem_iff.mp hg
    dsimp only
    split
    · rename_i hempty
      refine EndsE.pure fun g hg => ?_
      have hnil := mem_groups (hgroups g hg)
      rw [List.isEmpty_iff.mp hempty] at hnil
      exact absurd hnil.1 hnil.2.1
    · refine EndsE.bind ((fetchExchangePositions_ends scope.name _).mono (fun table w₂ h₂ => ?_) fun _ w₂ h₂ => ?_)
      · obtain ⟨hw₂, htable⟩ := h₂
        rw [hw₂, htable]
        have hapart : groups.Pairwise TradesApart :=
          ((horder _).pairwise_iff TradesApart.symm).mpr (groups_apart w.db scope.account.id)
        refine (reconcileGroups_ends scope groups hapart fun g hg => ?_).mono (fun _ _ h => h.2) fun _ _ h => h
        obtain ⟨htrades, hne, -⟩ := mem_groups (hgroups g hg)
        have hmem : ∀ t ∈ g.2.2, t ∈ listOpenOrClosingByAccount w.db scope.account.id ∧ (t.pair, t.direction) = g.1 :=
          fun t ht => by
            rw [htrades, List.mem_filter, decide_eq_true_eq] at ht
            exact ht
        refine ⟨lookup_positions ?_, ?_, fun t ht => listed_of_mem (hmem t ht).1⟩
        · obtain ⟨t, ht⟩ := List.exists_mem_of_ne_nil _ hne
          rw [collectDistinctPairs, List.mem_dedup, ← (hmem t ht).2]
          exact List.mem_map_of_mem (hmem t ht).1
        · rw [htrades]
          exact (List.filter_sublist.map Trade.id).nodup (listOpenOrClosing_nodup w.db scope.account.id)
      · rw [h₂]
        exact .refl _ _

/-- A reconciliation that returns leaves the trades of each pair and direction all open, and then the exchange
has positions of exactly their quantities, or all closed with their margins released once, and then it has
none. A group that does not agree with the positions is not changed, and the reconciliation fails. -/
theorem reconciled {order : List TradeGroup → List TradeGroup} (horder : ∀ gs, (order gs).Perm gs)
    {scope : AccountScope} {positions : Pair → List ExchangePosition} {w w' : StartupWorld} {r : Except Error Unit}
    (h : Runs (startupHandler positions) (reconcileOneAccount order scope).run w r w') (pair : Pair)
    (direction : Direction) (hne : w.db.sideOf scope.account.id pair direction ≠ []) :
    let ts := w.db.sideOf scope.account.id pair direction
    let total := (ts.map Trade.quantity).sum
    (r = .ok () →
      sideSize (positions pair) direction = total ∧ (∀ t ∈ ts, IsReconciled w.db w'.db true t) ∨
      (∀ p ∈ positions pair, 0 < p.size → exchangeSideToDirection p.side ≠ some direction) ∧
        ∀ t ∈ ts, IsReconciled w.db w'.db false t) ∧
    (Conflicting (positions pair) direction ∨
        0 < sideSize (positions pair) direction ∧ sideSize (positions pair) direction ≠ total →
      (∃ e, r = .error e) ∧ ∀ t ∈ ts, w'.db.trades.find? t.id = w.db.trades.find? t.id) := by
  intro ts total
  have hperm := sideOf_perm w.db scope.account.id pair direction
  set members := (listOpenOrClosingByAccount w.db scope.account.id).filter fun t =>
    (t.pair, t.direction) = (pair, direction) with hmembers
  have htotal : (members.map Trade.quantity).sum = total := (hperm.map Trade.quantity).sum_eq
  have hmem : members ≠ [] := fun hnil => by
    rw [hnil] at hperm
    exact hne hperm.nil_eq.symm
  have hgroup := groups_mem (listOpenOrClosingByAccount w.db scope.account.id) hmem
  rw [← hmembers, htotal] at hgroup
  have hgroup' := (horder _).mem_iff.mpr hgroup
  have hends := Lib.Prog.ends_iff.mp (reconcileOneAccount_ends horder scope) r w' h
  cases r with
  | ok u =>
    obtain ⟨⟨hconflict, hsize⟩, hsettled⟩ := hends _ hgroup'
    refine ⟨fun _ => ?_, fun hrejected => ?_⟩
    · by_cases hpos : 0 < sideSize (positions pair) direction
      · refine .inl ⟨hsize hpos, fun t ht => ?_⟩
        have := hsettled t (hperm.mem_iff.mpr ht)
        rwa [decide_eq_true hpos] at this
      · have hzero : sideSize (positions pair) direction = 0 := le_antisymm (not_lt.mp hpos) (sideSize_nonneg _ _)
        refine .inr ⟨sideSize_eq_zero hzero, fun t ht => ?_⟩
        have := hsettled t (hperm.mem_iff.mpr ht)
        rwa [decide_eq_false hpos] at this
    · rcases hrejected with hc | ⟨hpos, hne⟩
      · exact absurd hc hconflict
      · exact absurd (hsize hpos) hne
  | error e =>
    have hsame : w.db.SameOutside w'.db (touched positions (order (groupTradesForAggregateComparison
      (listOpenOrClosingByAccount w.db scope.account.id)))) := hends
    refine ⟨fun h => (by cases h), fun hrejected => ⟨⟨e, rfl⟩, fun t ht => (hsame t.id fun htouched => ?_).1⟩⟩
    obtain ⟨g, hg, hid⟩ := List.mem_flatMap.mp htouched
    obtain ⟨u, hu, hid⟩ := List.mem_map.mp hid
    obtain ⟨hg, haccepted⟩ := List.mem_filter.mp hg
    have haccepted : Accepted positions g := of_decide_eq_true haccepted
    have hother : g ≠ ((pair, direction), total, members) := by
      rintro rfl
      rcases hrejected with hc | ⟨hpos, hne⟩
      · exact haccepted.1 hc
      · exact hne (haccepted.2 hpos)
    have hapart := (groups_apart w.db scope.account.id).forall ((horder _).mem_iff.mp hg) hgroup hother
    exact hapart u hu t (hperm.mem_iff.mpr ht) hid

/-! ## Two pairs -/

/-- The trade on the exchange, and a closing trade in another pair that the exchange knows nothing of. -/
def sampleReconcileDb : Db where
  trades := ⟨[sampleTrade, { sampleTrade with id := 8, pair := "USD_JPY", status := .closing }], by decide⟩
  accounts := sampleDb.accounts
  accountEvents := []
  notifications := []

/-- One long of two coins. -/
def samplePositions (pair : Pair) : List ExchangePosition :=
  if pair = "FX_BTC_JPY" then [⟨pair, "BUY", 2⟩] else []

/-- Every call succeeds, at time 0 and without a price. -/
def sampleStartupAnswer (w : StartupWorld) : (c : StartupCall) → c.Ret × StartupWorld
  | .trading (.db q) =>
    match q.tx.run 0 w.db with
    | .ok (a, db) => (.ok a, { w with db })
    | .error e => (.error e, w)
  | .trading (.api (.getPositions pair)) => (.ok (samplePositions pair), w)
  | .trading (.api _) => (.error "", w)
  | .trading (.latestBidAsk _ _) => (none, w)
  | .trading (.lastTickAge _ _) => (none, w)
  | .trading .utcNow => ((0 : Int), w)
  | .trading .newUuid => ((0 : Nat), w)
  | .trading .pollPasses => ((0 : Nat), w)
  | .listOpenOrClosingByAccount accountId => (.ok (listOpenOrClosingByAccount w.db accountId), w)
  | .accountType accountId => (.ok ((w.db.accounts.find? accountId).map TradingAccount.live), w)
  | .upsertDailySummary key n m pnl => (.ok (), { w with summaries := upsertDailySummary key n m pnl w.summaries })
  | .systemAlert _ _ _ _ => (.ok (), w)

theorem sampleStartupAnswer_handled (w : StartupWorld) (c : StartupCall) :
    startupHandler samplePositions w c (sampleStartupAnswer w c).1 (sampleStartupAnswer w c).2 := by
  cases c with
  | trading c =>
    cases c with
    | db q =>
      simp only [sampleStartupAnswer, startupHandler, tradingHandler]
      split
      · rename_i a db h
        exact ⟨0, db, h, rfl⟩
      · exact ⟨0, w.db, rfl, rfl⟩
    | api c =>
      cases c with
      | getPositions pair => exact ⟨rfl, rfl⟩
      | _ => rfl
    | _ => rfl
  | listOpenOrClosingByAccount => exact ⟨rfl, rfl⟩
  | accountType => exact ⟨rfl, rfl⟩
  | upsertDailySummary => rfl
  | systemAlert => rfl

/-- The trade in the pair that the exchange has a position of stays open, the other one is closed. -/
theorem sampleReconciled : let w' := ((reconcileOneAccount id ⟨sampleAccount, "live"⟩).run.exec sampleStartupAnswer
      ⟨sampleReconcileDb, .empty⟩).2
    ∀ t ∈ sampleReconcileDb.sideOf 1 "USD_JPY" .long, IsReconciled sampleReconcileDb w'.db false t := by
  have hruns := Lib.Prog.runs_exec sampleStartupAnswer_handled (reconcileOneAccount id ⟨sampleAccount, "live"⟩).run
    ⟨sampleReconcileDb, .empty⟩
  rcases (reconciled (fun gs => List.Perm.refl gs) hruns "USD_JPY" .long (by decide +kernel)).1 (by decide +kernel) with
    ⟨hsize, -⟩ | ⟨-, hclosed⟩
  · exact absurd hsize (by decide +kernel)
  · exact hclosed

end AutoTrader
