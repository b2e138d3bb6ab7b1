import AutoTrader.Backtest.Runner
import AutoTrader.Lib.Fallible
import AutoTrader.Lib.Lifetimes

/-!
# The accounts of a backtest

`Books` is what every phase of every candle of a run keeps: the list of trades is orderly, the open positions are those
trades that have not been closed, with one for each strategy and pair at most, and the balance is the initial one and
the profits of the closed trades. Both phases that close positions are a list of requests (`closeAll`), and an entry
is the only other step (`Books.entry`).
-/

namespace AutoTrader

open Lib (Orderly Alive)

variable {S : Type}

/-- The trade is closed. -/
def Trade.Closed (t : Trade) : Prop := t.status = .closed

instance : DecidablePred Trade.Closed := fun t => inferInstanceAs (Decidable (t.status = .closed))

/-- The strategy closes positions that are open, each once. -/
def BacktestStrategy.NamesOpen (strategy : BacktestStrategy S) : Prop :=
  ∀ state positions event, (positions.map fun p : Position => p.trade.id).Nodup →
    ((strategy.onOpenPositions state positions event).1.map ExitSignal.tradeId).Nodup ∧
    ∀ exit ∈ (strategy.onOpenPositions state positions event).1, ∃ p ∈ positions, p.trade.id = exit.tradeId

/-- At most one open position for a strategy and a pair. -/
def RunState.OnePosition (st : RunState S) : Prop :=
  (st.trader.positions.rows.map fun t => (t.strategyName, t.pair)).Nodup

/-- The books of a run: the log of its trades, the positions and the balance agree. -/
structure Books (s : Surroundings) (b : Decimal) (st : RunState S) : Prop where
  orderly : Orderly Trade.id Trade.Closed st.trades
  alive : ∀ p ∈ st.trader.positions.rows, Alive Trade.id Trade.Closed st.trades p.id
  drawn : ∀ t ∈ st.trades, ∃ n < st.ids, s.newId n = t.id
  status : ∀ t ∈ st.trades, t.status = .open ∨ t.status = .closed
  balance : st.trader.balance = b + (closedPnls st.trades).sum
  pnl : ∀ t ∈ closedTrades st.trades, t.pnlAmount.isSome
  onePosition : st.OnePosition

/-! ## Closing -/

namespace RunState

/-- The state after a position is closed. -/
def afterClose (st : RunState S) (p : Trade) (reason : ExitReason) (price : Decimal) (now : DateTime) : RunState S :=
  { st with
    trader := { st.trader with
      positions := st.trader.positions.erase p.id
      balance := st.trader.balance + st.trader.pnlAmount p price }
    trades := st.trades ++ [st.trader.closed p reason price now] }

theorem close_eq (st : RunState S) {p : Trade} (hp : p ∈ st.trader.positions.rows) (reason : ExitReason)
    (price : Decimal) (now : DateTime) :
    st.close p.id reason price now = .ok (st.afterClose p reason price now) := by
  have hfind := Lib.Table.mem_iff_find?.mp hp
  rw [close, SimTrader.close, hfind]
  rfl

end RunState

theorem closedTrades_append (trades added : List Trade) :
    closedTrades (trades ++ added) = closedTrades trades ++ closedTrades added := List.filter_append ..

theorem closedPnls_append (trades added : List Trade) :
    closedPnls (trades ++ added) = closedPnls trades ++ closedPnls added := by
  rw [closedPnls, closedTrades_append, List.map_append, closedPnls, closedPnls]

section

variable {s : Surroundings} {b : Decimal} {st : RunState S}

theorem Books.close (h : Books s b st) {p : Trade} (hp : p ∈ st.trader.positions.rows) (reason : ExitReason)
    (price : Decimal) (now : DateTime) : Books s b (st.afterClose p reason price now) := by
  have hended : (st.trader.closed p reason price now).Closed := rfl
  refine ⟨h.orderly.finish hended (h.alive p hp), fun q hq => ?_, fun t ht => ?_, fun t ht => ?_, ?_,
    fun t ht => ?_, ?_⟩
  · obtain ⟨hq, hne⟩ := Lib.Table.mem_erase.mp hq
    refine (h.alive q hq).append fun t ht _ => ?_
    rw [List.mem_singleton.mp ht]
    exact fun heq => hne heq.symm
  · rcases List.mem_append.mp ht with ht | ht
    · exact h.drawn t ht
    · obtain ⟨o, ho, -, hid⟩ := (h.alive p hp).begun
      obtain ⟨n, hn, heq⟩ := h.drawn o ho
      refine ⟨n, hn, ?_⟩
      rw [List.mem_singleton.mp ht, heq, hid]
      rfl
  · rcases List.mem_append.mp ht with ht | ht
    · exact h.status t ht
    · rw [List.mem_singleton.mp ht]
      exact .inr rfl
  · show st.trader.balance + _ = _ + (closedPnls (st.trades ++ _)).sum
    rw [closedPnls_append, List.sum_append, h.balance, add_assoc]
    simp [closedPnls, closedTrades, SimTrader.closed]
  · rw [RunState.afterClose, closedTrades_append] at ht
    rcases List.mem_append.mp ht with ht | ht
    · exact h.pnl t ht
    · rw [List.mem_singleton.mp (List.mem_filter.mp ht).1]
      rfl
  · exact (List.filter_sublist.map _).nodup h.onePosition

/-! ## Requests to close -/

/-- The identifier of a position, the reason and the price to close it at. -/
abbrev CloseRequest := Uuid × ExitReason × Decimal

/-- A number of closes, one after the other. -/
def closeAll (now : DateTime) (requests : List CloseRequest) (st : RunState S) : Except Error (RunState S) :=
  requests.foldlM (fun st q => st.close q.1 q.2.1 q.2.2 now) st

/-- The trades that were added are the closed copies of the positions. -/
structure ClosedAll (now : DateTime) (requests : List CloseRequest) (st st' : RunState S) : Prop where
  positions : ∀ p, p ∈ st'.trader.positions.rows ↔ p ∈ st.trader.positions.rows ∧ p.id ∉ requests.map Prod.fst
  trades : ∃ added, st'.trades = st.trades ++ added ∧ ∀ q ∈ requests, ∀ p ∈ st.trader.positions.rows,
    p.id = q.1 → st.trader.closed p q.2.1 q.2.2 now ∈ added

theorem Books.closesAll (h : Books s b st) (now : DateTime) (requests : List CloseRequest)
    (hnodup : (requests.map Prod.fst).Nodup)
    (hopen : ∀ q ∈ requests, ∃ p ∈ st.trader.positions.rows, p.id = q.1) :
    ∃ st', closeAll now requests st = .ok st' ∧ Books s b st' ∧ ClosedAll now requests st st' := by
  induction requests generalizing st with
  | nil => exact ⟨st, rfl, h, by simp, [], by simp⟩
  | cons q requests ih =>
    obtain ⟨hq, hnodup⟩ := List.nodup_cons.mp hnodup
    obtain ⟨p, hp, hid⟩ := hopen q List.mem_cons_self
    have hleft : ∀ q' ∈ requests, ∀ p' ∈ st.trader.positions.rows, p'.id = q'.1 →
        p' ∈ (st.afterClose p q.2.1 q.2.2 now).trader.positions.rows := by
      intro q' hq' p' hp' hid'
      refine Lib.Table.mem_erase.mpr ⟨hp', fun heq => hq ?_⟩
      rw [← hid, ← heq, hid']
      exact List.mem_map_of_mem hq'
    have hrest : ∀ q' ∈ requests, ∃ p' ∈ (st.afterClose p q.2.1 q.2.2 now).trader.positions.rows, p'.id = q'.1 := by
      intro q' hq'
      obtain ⟨p', hp', hid'⟩ := hopen q' (List.mem_cons_of_mem _ hq')
      exact ⟨p', hleft q' hq' p' hp' hid', hid'⟩
    obtain ⟨st', hrun, hbooks, hclosed⟩ := ih (h.close hp q.2.1 q.2.2 now) hnodup hrest
    obtain ⟨added, htrades, hcopies⟩ := hclosed.trades
    refine ⟨st', ?_, hbooks, fun p' => ?_, st.trader.closed p q.2.1 q.2.2 now :: added, ?_,
      fun q' hq' p' hp' hid' => ?_⟩
    · rw [closeAll, List.foldlM_cons, ← hid, st.close_eq hp]
      exact hrun
    · rw [hclosed.positions, List.map_cons, List.mem_cons, not_or, ← hid]
      show p' ∈ (st.trader.positions.erase p.id).rows ∧ _ ↔ _
      rw [Lib.Table.mem_erase, and_assoc]
    · rw [htrades]
      exact List.append_assoc ..
    · rcases List.mem_cons.mp hq' with rfl | hq'
      · have heq : p' = p := by
          have hfind := Lib.Table.mem_iff_find?.mp hp'
          rw [hid', ← hid, Lib.Table.mem_iff_find?.mp hp] at hfind
          exact (Option.some.inj hfind).symm
        rw [heq]
        exact List.mem_cons_self
      · exact List.mem_cons_of_mem _ (hcopies q' hq' p' (hleft q' hq' p' hp' hid') hid')

/-- Neither the strategy nor the reads of the positions are in the books. -/
theorem Books.frame (h : Books s b st) {st' : RunState S} (htrader : st'.trader = st.trader)
    (htrades : st'.trades = st.trades) (hids : st'.ids = st.ids) : Books s b st' := by
  refine ⟨htrades ▸ h.orderly, ?_, ?_, htrades ▸ h.status, ?_, htrades ▸ h.pnl, ?_⟩
  · rw [htrader, htrades]
    exact h.alive
  · rw [htrades, hids]
    exact h.drawn
  · rw [htrader, htrades]
    exact h.balance
  · rw [RunState.OnePosition, htrader]
    exact h.onePosition

/-! ## Fixed exits -/

/-- The close that a candle asks of a position. -/
def hitRequest (pair : Pair) (candle : Candle) (t : Trade) : Option CloseRequest :=
  if t.pair ≠ pair then none else (fixedExitFor t candle).map fun exit => (t.id, exit)

theorem hitRequest_id {pair : Pair} {candle : Candle} {t : Trade} {q : CloseRequest}
    (h : hitRequest pair candle t = some q) : q.1 = t.id := by
  unfold hitRequest at h
  split at h
  · cases h
  · obtain ⟨exit, -, rfl⟩ := Option.map_eq_some_iff.mp h
    rfl

theorem closeHitFixedExits_eq (pair : Pair) (candle : Candle) (st : RunState S) :
    st.closeHitFixedExits s pair candle =
      closeAll candle.timestamp ((st.openPositions s).filterMap (hitRequest pair candle)) st.read := by
  rw [closeAll, List.foldlM_filterMap, RunState.closeHitFixedExits]
  congr 1
  funext st t
  unfold RunState.closeIfHit hitRequest
  split
  · rfl
  · rcases fixedExitFor t candle with _ | exit
    · rfl
    · rfl

theorem mem_openPositions {t : Trade} : t ∈ st.openPositions s ↔ t ∈ st.trader.positions.rows :=
  (s.values_perm st.reads st.trader.positions.rows).mem_iff

theorem openPositions_nodup (s : Surroundings) (st : RunState S) : ((st.openPositions s).map Trade.id).Nodup :=
  ((s.values_perm st.reads st.trader.positions.rows).map Trade.id).nodup_iff.mpr st.trader.positions.nodup

/-- The candle reaches the stop. -/
def Trade.TouchesStop (t : Trade) (candle : Candle) : Prop :=
  match t.direction with
  | .long => candle.low ≤ t.stopLoss
  | .short => candle.high ≥ t.stopLoss

theorem fixedExitFor_of_touchesStop {t : Trade} {candle : Candle} (h : t.TouchesStop candle) :
    fixedExitFor t candle = some (.slHit, t.stopLoss) := by
  unfold Trade.TouchesStop at h
  unfold fixedExitFor
  rcases hd : t.direction with _ | _
  · rw [hd] at h
    exact if_pos h
  · rw [hd] at h
    exact if_pos h

/-- A position that is left at its stop: it is gone, and its closed copy is among the trades that were added. -/
structure StoppedAt (p : Trade) (now : DateTime) (st st' : RunState S) : Prop where
  gone : p ∉ st'.trader.positions.rows
  copy : ∃ added, st'.trades = st.trades ++ added ∧ st.trader.closed p .slHit p.stopLoss now ∈ added

theorem Books.fixedExits (h : Books s b st) (pair : Pair) (candle : Candle) :
    ∃ st', st.closeHitFixedExits s pair candle = .ok st' ∧ Books s b st' ∧ st.trades <+: st'.trades ∧
      ∀ p ∈ st.trader.positions.rows, p.pair = pair → p.TouchesStop candle →
        StoppedAt p candle.timestamp st st' := by
  have hbooks : Books s b st.read := h.frame rfl rfl rfl
  have hnodup : (((st.openPositions s).filterMap (hitRequest pair candle)).map Prod.fst).Nodup := by
    refine List.pairwise_map.mpr (List.pairwise_filterMap.mpr ?_)
    refine (List.pairwise_map.mp (openPositions_nodup s st)).imp fun {p p'} hne q hq q' hq' => ?_
    rw [hitRequest_id hq, hitRequest_id hq']
    exact hne
  obtain ⟨st', hrun, hbooks', hclosed⟩ := hbooks.closesAll candle.timestamp _ hnodup fun q hq => by
    obtain ⟨t, ht, hreq⟩ := List.mem_filterMap.mp hq
    exact ⟨t, ((s.values_perm st.reads st.trader.positions.rows).mem_iff).mp ht, (hitRequest_id hreq).symm⟩
  obtain ⟨added, htrades, hcopies⟩ := hclosed.trades
  refine ⟨st', (closeHitFixedExits_eq pair candle st).trans hrun, hbooks', ⟨added, htrades.symm⟩,
    fun p hp hpair hstop => ?_⟩
  have hreq : (p.id, ExitReason.slHit, p.stopLoss) ∈ (st.openPositions s).filterMap (hitRequest pair candle) := by
    refine List.mem_filterMap.mpr ⟨p, mem_openPositions.mpr hp, ?_⟩
    rw [hitRequest, if_neg (not_not.mpr hpair), fixedExitFor_of_touchesStop hstop]
    rfl
  refine ⟨fun hin => ?_, added, htrades, hcopies _ hreq p hp rfl⟩
  exact ((hclosed.positions p).mp hin).2 (List.mem_map.mpr ⟨_, hreq, rfl⟩)

/-! ## Entries -/

/-- A trade that was opened, where there was no position of its strategy and pair. -/
structure EntryOpened (s : Surroundings) (trade : Trade) (st st' : RunState S) : Prop where
  id : trade.id = s.newId st.ids
  status : trade.status = .open
  alone : ∀ t ∈ st.trader.positions.rows, (t.strategyName, t.pair) ≠ (trade.strategyName, trade.pair)
  trader : st'.trader = { st.trader with positions := st.trader.positions.upsert trade fun _ => trade }
  trades : st'.trades = st.trades ++ [trade]
  ids : st'.ids = st.ids + 1

theorem tryOpenNewEntry_cases (s : Surroundings) (strategy : BacktestStrategy S) (event : IndicatorEvent)
    (sizer : PositionSizer) (level : Decimal) (st : RunState S) :
    ((st.tryOpenNewEntry s strategy event sizer level).trader = st.trader ∧
      (st.tryOpenNewEntry s strategy event sizer level).trades = st.trades ∧
      (st.tryOpenNewEntry s strategy event sizer level).ids = st.ids) ∨
    ∃ trade, EntryOpened s trade st (st.tryOpenNewEntry s strategy event sizer level) := by
  unfold RunState.tryOpenNewEntry
  dsimp only
  rcases (strategy.onPrice st.strategy event).1 with _ | signal
  · exact .inl ⟨rfl, rfl, rfl⟩
  · dsimp only
    split
    · exact .inl ⟨rfl, rfl, rfl⟩
    · rename_i hnone
      split
      · rename_i opened hopen
        obtain ⟨quantity, -, rfl⟩ := Option.map_eq_some_iff.mp hopen
        refine .inr ⟨_, rfl, rfl, fun t ht heq => hnone ?_, rfl, rfl, rfl⟩
        obtain ⟨hname, hpair⟩ := Prod.mk.inj heq
        exact List.any_eq_true.mpr ⟨t, mem_openPositions.mpr ht, decide_eq_true ⟨hname, hpair⟩⟩
      · exact .inl ⟨rfl, rfl, rfl⟩

theorem trades_tryOpenNewEntry (s : Surroundings) (strategy : BacktestStrategy S) (event : IndicatorEvent)
    (sizer : PositionSizer) (level : Decimal) (st : RunState S) :
    st.trades <+: (st.tryOpenNewEntry s strategy event sizer level).trades := by
  rcases tryOpenNewEntry_cases s strategy event sizer level st with ⟨-, htrades, -⟩ | ⟨trade, ho⟩
  · rw [htrades]
  · exact ⟨[trade], ho.trades.symm⟩

theorem Books.entry (h : Books s b st) (strategy : BacktestStrategy S) (event : IndicatorEvent)
    (sizer : PositionSizer) (level : Decimal) : Books s b (st.tryOpenNewEntry s strategy event sizer level) := by
  rcases tryOpenNewEntry_cases s strategy event sizer level st with ⟨htrader, htrades, hids⟩ | ⟨trade, ho⟩
  · exact h.frame htrader htrades hids
  · generalize st.tryOpenNewEntry s strategy event sizer level = st' at ho
    have hopen : ¬trade.Closed := by
      rw [Trade.Closed, ho.status]
      decide
    have hfresh : ∀ t ∈ st.trades, t.id ≠ trade.id := by
      intro t ht heq
      obtain ⟨n, hn, hid⟩ := h.drawn t ht
      rw [heq, ho.id] at hid
      exact absurd (s.newId_injective hid) (Nat.ne_of_lt hn)
    have hnew : st.trader.positions.find? trade.id = none := by
      refine Lib.Table.find?_eq_none.mpr fun hin => ?_
      obtain ⟨p, hp, hid⟩ := List.mem_map.mp hin
      obtain ⟨o, hmem, -, heq⟩ := (h.alive p hp).begun
      exact hfresh o hmem (heq.trans hid)
    have hrows : st'.trader.positions.rows = trade :: st.trader.positions.rows := by
      rw [ho.trader]
      exact Lib.Table.rows_insert (Lib.Table.upsert_of_none (fun _ => trade) hnew)
    have hclosed : closedTrades st'.trades = closedTrades st.trades := by
      rw [ho.trades, closedTrades_append, show closedTrades [trade] = [] from
        List.filter_cons_of_neg (fun hclosed => hopen (of_decide_eq_true hclosed)), List.append_nil]
    refine ⟨?_, fun p hp => ?_, fun t ht => ?_, fun t ht => ?_, ?_, fun t ht => ?_, ?_⟩
    · rw [ho.trades]
      exact h.orderly.begin hopen hfresh
    · rw [ho.trades]
      rw [hrows] at hp
      rcases List.mem_cons.mp hp with rfl | hp
      · exact Lib.alive_begin hopen hfresh
      · refine (h.alive p hp).append fun t ht hends => ?_
        rw [List.mem_singleton.mp ht] at hends
        exact absurd hends hopen
    · rw [ho.ids]
      rw [ho.trades] at ht
      rcases List.mem_append.mp ht with ht | ht
      · obtain ⟨n, hn, hid⟩ := h.drawn t ht
        exact ⟨n, Nat.lt_succ_of_lt hn, hid⟩
      · exact ⟨st.ids, Nat.lt_succ_self _, by rw [List.mem_singleton.mp ht, ho.id]⟩
    · rw [ho.trades] at ht
      rcases List.mem_append.mp ht with ht | ht
      · exact h.status t ht
      · rw [List.mem_singleton.mp ht]
        exact .inl ho.status
    · rw [closedPnls, hclosed, ho.trader]
      exact h.balance
    · rw [hclosed] at ht
      exact h.pnl t ht
    · rw [RunState.OnePosition, hrows, List.map_cons, List.nodup_cons]
      refine ⟨fun hin => ?_, h.onePosition⟩
      obtain ⟨t, ht, heq⟩ := List.mem_map.mp hin
      exact ho.alone t ht heq

/-! ## Exits of the strategy -/

/-- The close that a strategy's exit asks for. -/
def exitRequest (exit : ExitSignal) : CloseRequest := (exit.tradeId, exit.reason.toExitReason, exit.closePrice)

theorem Books.strategyExits (h : Books s b st) {strategy : BacktestStrategy S} (hnames : strategy.NamesOpen)
    (event : IndicatorEvent) :
    ∃ st', st.closeStrategyDrivenExits s strategy event = .ok st' ∧ Books s b st' ∧ st.trades <+: st'.trades := by
  have hids : ((st.openPositions s).map Position.mk).map (fun p => p.trade.id) = (st.openPositions s).map Trade.id := by
    rw [List.map_map]
    rfl
  obtain ⟨hnodup, hopen⟩ := hnames st.strategy ((st.openPositions s).map Position.mk) event
    (by rw [hids]; exact openPositions_nodup s st)
  have hbooks : Books s b { st.read with
      strategy := (strategy.onOpenPositions st.strategy ((st.openPositions s).map Position.mk) event).2 } :=
    h.frame rfl rfl rfl
  unfold RunState.closeStrategyDrivenExits
  dsimp only
  generalize strategy.onOpenPositions st.strategy ((st.openPositions s).map Position.mk) event = answer at *
  obtain ⟨st', hrun, hbooks', hclosed⟩ := hbooks.closesAll event.timestamp (answer.1.map exitRequest)
    (by rw [List.map_map]; exact hnodup) fun q hq => by
      obtain ⟨exit, hexit, rfl⟩ := List.mem_map.mp hq
      obtain ⟨p, hp, hid⟩ := hopen exit hexit
      obtain ⟨t, ht, rfl⟩ := List.mem_map.mp hp
      exact ⟨t, ((s.values_perm st.reads st.trader.positions.rows).mem_iff).mp ht, hid⟩
  obtain ⟨added, htrades, -⟩ := hclosed.trades
  refine ⟨st', ?_, hbooks', added, htrades.symm⟩
  rw [closeAll, List.foldlM_map] at hrun
  exact hrun

end

end AutoTrader
