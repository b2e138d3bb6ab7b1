import AutoTrader.Db.Queries
import AutoTrader.Db.Summary
import AutoTrader.Executor.Play
import AutoTrader.Lib.Threads

/-!
# The writers of the daily summary

Closes are committed, the recorder adds each of them to its row later, and any number of drawdown runs and
rebuilds write the same rows. A row that is built from the trades of the day holds closes the recorder has
yet to add, and these are counted twice. When the recorder is done, a row agrees with the trades iff none
were (`summaries_agree_iff`).
-/

namespace AutoTrader

open Lib (Config History Label Prog Protocol Step Sys)
open Lib.Prog (Only)

/-! ## The recorder -/

/-- The event of a close, with the account type if there is one. -/
structure ClosedEvent where
  trade : Trade
  live : Option Bool
  deriving DecidableEq, Repr

/-- The recorder adds one close to the summary of its day. -/
def upsertCloseDailySummary (t : Trade) (live : Option Bool) (exitAt : DateTime) (pnlAmount : Decimal)
    (s : Summaries) : Summaries :=
  let date := DateTime.dateNaive exitAt
  let win := if pnlAmount > 0 then 1 else 0
  upsertDailySummary ⟨date, t.strategyName, t.pair, live.getD false, t.exchange, some t.accountId⟩ 1 win pnlAmount s

/-- The recorder handles an event; one without the values of a close changes nothing. -/
def recordClosedTrade (e : ClosedEvent) (s : Summaries) : Summaries :=
  match e.trade.exitPrice, e.trade.exitAt, e.trade.pnlAmount, e.trade.exitReason with
  | some _, some exitAt, some pnlAmount, some _ => upsertCloseDailySummary e.trade e.live exitAt pnlAmount s
  | _, _, _, _ => s

/-- The close that an event reports. -/
def ClosedEvent.closeAt (e : ClosedEvent) (exitAt : DateTime) (pnlAmount : Decimal) : DayClose where
  key := ⟨DateTime.dateNaive exitAt, e.trade.strategyName, e.trade.pair, e.live.getD false, e.trade.exchange,
    some e.trade.accountId⟩
  exitAt := exitAt
  pnl := pnlAmount

/-- What the recorder makes of the event. -/
def ClosedEvent.close (e : ClosedEvent) : Option DayClose :=
  match e.trade.exitPrice, e.trade.exitAt, e.trade.pnlAmount, e.trade.exitReason with
  | some _, some exitAt, some pnlAmount, some _ => some (e.closeAt exitAt pnlAmount)
  | _, _, _, _ => none

theorem recordClosedTrade_eq (e : ClosedEvent) (s : Summaries) : recordClosedTrade e s =
    match e.close with
    | some c => upsertDailySummary c.key 1 (if c.pnl > 0 then 1 else 0) c.pnl s
    | none => s := by
  simp only [recordClosedTrade, ClosedEvent.close]
  split <;> rfl

/-! ## Runs -/

/-- The database with the summaries, and the closes that the recorder has yet to add. -/
structure DayBook where
  db : Db
  summaries : Summaries
  /-- The closes that are committed and that the recorder has not added yet. -/
  pending : List ClosedEvent

/-- The closes that the recorder has yet to add. -/
def DayBook.pendingCloses (w : DayBook) : List DayClose := w.pending.filterMap ClosedEvent.close

/-- What happens outside the summary jobs. -/
inductive DayMove where
  /-- A close is committed. -/
  | close (now : DateTime) (accountId : Uuid) (event : ClosedEvent) (margin pnlAmount exitPrice : Decimal)
      (exitAt : DateTime) (exitReason : ExitReason)
  /-- The recorder adds a close. -/
  | record (event : ClosedEvent)
  /-- A write that closes no trade. -/
  | other (db : Db)

/-- The event is about the row of its trade, with the exit that the close has written. -/
structure ClosedEvent.Reports (e : ClosedEvent) (db : Db) (pnlAmount exitPrice : Decimal) (exitAt : DateTime)
    (exitReason : ExitReason) : Prop where
  row : ∃ r ∈ db.trades.find? e.trade.id, e.trade.terms = r.terms
  account : ∃ a ∈ db.accounts.find? e.trade.accountId, e.live = some a.live
  exit : e.trade.exitPrice = some exitPrice ∧ e.trade.exitAt = some exitAt ∧ e.trade.pnlAmount = some pnlAmount ∧
    e.trade.exitReason = some exitReason

/-- What each move does. -/
def DayMove.moves (w : DayBook) : DayMove → DayBook → Prop
  | .close now accountId event margin pnlAmount exitPrice exitAt exitReason, w' =>
    event.Reports w.db pnlAmount exitPrice exitAt exitReason ∧
      (persistClosedTradeTx accountId event.trade margin pnlAmount exitPrice exitAt exitReason).run now w.db =
        .ok ((), w'.db) ∧ w' = { w with db := w'.db, pending := event :: w.pending }
  | .record event, w' => event ∈ w.pending ∧
      w' = { w with summaries := recordClosedTrade event w.summaries, pending := w.pending.erase event }
  | .other db, w' => db.closes.Perm w.db.closes ∧ w' = { w with db }

/-- A statement is executed or fails. -/
def dayBookSys : Sys SummaryCalls DayBook DayMove where
  respond _ w q r w' :=
    (∃ a s, r = .ok a ∧ q.tx w.db w.summaries = some (a, s) ∧ w' = { w with summaries := s }) ∨
      ∃ e, r = .error e ∧ w' = w
  move w m w' := m.moves w w'

/-- The jobs that write summaries. -/
inductive SummaryTask where
  | drawdown (date : NaiveDate)
  | rebuild (date : NaiveDate)

/-- The program of a job. -/
def SummaryTask.prog : SummaryTask → Prog SummaryCalls (Except Error Unit)
  | .drawdown date => (updateDailyMaxDrawdown date).run
  | .rebuild date => (rebuildDailySummary date).run

/-- A run of summary jobs between commits, the recorder and other writes. -/
abbrev SummaryRun := History SummaryCalls DayBook DayMove (Except Error Unit)

namespace SummaryRun

/-- A run of the jobs `tasks` from `w₀`. -/
def Of (w₀ : DayBook) (tasks : Nat → SummaryTask) (h : SummaryRun) : Prop :=
  h.Valid dayBookSys ⟨w₀, fun i => (tasks i).prog⟩

/-- How many closes are counted twice in each row: all that a new row of a drawdown run holds, and all that
were pending at the last rebuild. -/
def countStep (twice : SummaryKey → Nat) (c : Config SummaryCalls DayBook (Except Error Unit)) :
    Label SummaryCalls DayMove → SummaryKey → Nat
  | .call _ (.insertMaxDrawdown row) (.ok _) =>
    if (c.world.summaries.find? row.key).isNone then Function.update twice row.key row.tradeCount.toNat else twice
  | .call _ (.rebuild date) (.ok _) => fun key =>
    if key.date = date then (pnlsOf key c.world.pendingCloses).length else twice key
  | _ => twice

/-- The closes of a key that a run counts twice. -/
def countedTwice (h : SummaryRun) : SummaryKey → Nat := h.ghost (fun twice c l _ => countStep twice c l) fun _ => 0

end SummaryRun

/-- The row and the row that a rebuild makes have the same totals, or neither is there. -/
def DayBook.Agrees (w : DayBook) (key : SummaryKey) : Prop :=
  (w.summaries.find? key).map DailySummary.totals =
    ((dayRows w.db key.date).find? fun row => row.key = key).map DailySummary.totals

/-! ## What a close adds -/

theorem live_find?_set {accounts : Lib.Table TradingAccount.id} {a b : TradingAccount}
    (ha : accounts.find? b.id = some a) (hlive : b.live = a.live) (id : Uuid) :
    ((accounts.set b).find? id).map TradingAccount.live = (accounts.find? id).map TradingAccount.live := by
  rw [Lib.Table.find?_set ha]
  split
  · rename_i hid
    rw [hid, ha, Option.map_some, Option.map_some, hlive]
  · rfl

theorem closeOf_congr {accounts accounts' : Lib.Table TradingAccount.id}
    (h : ∀ id, (accounts'.find? id).map TradingAccount.live = (accounts.find? id).map TradingAccount.live) :
    closeOf accounts' = closeOf accounts := by
  funext r
  simp only [closeOf, h]

/-- A committed close adds to the closed trades what the recorder will add to the summary. -/
theorem ClosedEvent.Reports.closes {e : ClosedEvent} {db db' : Db} {now : DateTime} {accountId : Uuid}
    {margin pnlAmount exitPrice : Decimal} {exitAt : DateTime} {exitReason : ExitReason}
    (h : e.Reports db pnlAmount exitPrice exitAt exitReason)
    (htx : (persistClosedTradeTx accountId e.trade margin pnlAmount exitPrice exitAt exitReason).run now db =
      .ok ((), db')) : ∃ c, e.close = some c ∧ db'.closes.Perm (c :: db.closes) := by
  obtain ⟨r, a, notifications, hr, hopen, ha, hdb⟩ := persistClosedTradeTx_ok htx
  obtain ⟨r', hr', hterms⟩ := h.row
  obtain rfl := Option.some.inj (hr.symm.trans hr')
  obtain ⟨owner, howner, hlive⟩ := h.account
  obtain ⟨hprice, hat, hpnl, hreason⟩ := h.exit
  refine ⟨e.closeAt exitAt pnlAmount, by simp only [ClosedEvent.close, hprice, hat, hpnl, hreason], ?_⟩
  have hid : r.id = e.trade.id := Db.trade_id hr
  have haccounts : closeOf db'.accounts = closeOf db.accounts := by
    rw [hdb]
    refine closeOf_congr (live_find?_set (a := a) ?_ rfl)
    exact (Db.account_id ha).symm ▸ ha
  have hset : db.trades.find? (r.settle exitPrice exitAt pnlAmount exitReason e.trade.fees).id = some r := by
    rw [← hid] at hr
    exact hr
  have hnone : closeOf db.accounts r = none := by
    simp only [closeOf]
    split
    · rename_i hclosed _ _
      exact absurd hclosed hopen
    · rfl
  have hrow : closeOf db.accounts (r.settle exitPrice exitAt pnlAmount exitReason e.trade.fees) =
      some (e.closeAt exitAt pnlAmount) := by
    have hstrategy : r.strategyName = e.trade.strategyName :=
      show r.terms.strategyName = e.trade.terms.strategyName by rw [hterms]
    have hpair : r.pair = e.trade.pair := show r.terms.pair = e.trade.terms.pair by rw [hterms]
    have hexchange : r.exchange = e.trade.exchange := show r.terms.exchange = e.trade.terms.exchange by rw [hterms]
    have haccount : r.accountId = e.trade.accountId := show r.terms.accountId = e.trade.terms.accountId by rw [hterms]
    simp only [closeOf, TradeRow.settle, hstrategy, hpair, hexchange, haccount, Option.mem_def.mp howner, hlive,
      Option.map_some, Option.getD_some, ClosedEvent.closeAt]
  have hperm := Lib.Table.filterMap_set_perm (closeOf db.accounts) hset hnone
  rw [hrow] at hperm
  rw [Db.closes, haccounts, hdb]
  exact hperm

/-! ## What the writers insert -/

/-- A drawdown run inserts the totals of some trades. -/
def Counted : SummarySql → Prop
  | .insertMaxDrawdown row => ∃ pnls, pnls ≠ [] ∧ row.totals = aggregateTotals pnls
  | _ => True

theorem persistMaxDrawdown_counted {date : NaiveDate} {group : GroupKey} {pnls : List Decimal} {live : Bool}
    {maxDd : Decimal} (h : pnls ≠ []) :
    Only Counted (persistMaxDrawdown date group pnls live maxDd).run := by
  refine Lib.Prog.OnlyE.bind (Only.perform trivial) fun rowsAffected => ?_
  split
  · exact Only.perform ⟨pnls, h, foldTotals_eq pnls⟩
  · exact Lib.Prog.OnlyE.pure _

theorem persistMaxDrawdowns_counted {date : NaiveDate} : ∀ {groups : List (GroupKey × List Decimal × Bool)},
    (∀ group ∈ groups, group.2.1 ≠ []) → Only Counted (persistMaxDrawdowns date groups).run
  | [], _ => Lib.Prog.OnlyE.pure _
  | (_, _, _) :: _, h =>
    Lib.Prog.OnlyE.bind (persistMaxDrawdown_counted (h _ List.mem_cons_self)) fun _ =>
      persistMaxDrawdowns_counted fun group hg => h group (List.mem_cons_of_mem _ hg)

theorem updateDailyMaxDrawdown_counted (date : NaiveDate) : Only Counted (updateDailyMaxDrawdown date).run := by
  refine Lib.Prog.OnlyE.bind (Only.perform trivial) fun rows => persistMaxDrawdowns_counted fun group hg => ?_
  obtain ⟨⟨key, closes⟩, hmem, rfl⟩ := List.mem_map.mp hg
  have hne : closes ≠ [] := (Lib.mem_groupBy_iff.mp hmem).2
  exact fun hnil => hne (List.map_eq_nil_iff.mp hnil)

theorem SummaryTask.counted : ∀ task : SummaryTask, Only Counted task.prog
  | .drawdown date => updateDailyMaxDrawdown_counted date
  | .rebuild date => Lib.Prog.OnlyE.bind (Only.perform trivial) fun _ => updateDailyMaxDrawdown_counted date

/-! ## What each write keeps -/

/-- The closed trades are those that are pending and those that are recorded. A row holds what is recorded of
its group, and once more as many closes as are counted twice. -/
def DayBook.Kept (w : DayBook) (twice : SummaryKey → Nat) : Prop :=
  ∃ recorded, w.db.closes.Perm (w.pendingCloses ++ recorded) ∧
    ∀ key, ∃ extra : List Decimal, extra.length = twice key ∧
      Holds (w.summaries.find? key) (extra ++ pnlsOf key recorded)

theorem Holds.add {row : Option DailySummary} {pnls : List Decimal} (h : Holds row pnls) (key : SummaryKey)
    (pnl : Decimal) :
    Holds (some ((row.map fun old => old.add 1 (if pnl > 0 then 1 else 0) pnl).getD
      ⟨key, 1, if pnl > 0 then 1 else 0, pnl, 0⟩)) (pnl :: pnls) := by
  refine ⟨List.cons_ne_nil _ _, ?_⟩
  rw [aggregateTotals_cons]
  cases row with
  | none =>
    have h : pnls = [] := h
    rw [h]
    exact (add_zero _).symm
  | some old =>
    rw [← h.2, add_comm]
    rfl

namespace DayBook.Kept

variable {w : DayBook} {twice : SummaryKey → Nat}

theorem close {e : ClosedEvent} {c : DayClose} {db : Db} (h : w.Kept twice) (hc : e.close = some c)
    (hdb : db.closes.Perm (c :: w.db.closes)) : Kept { w with db, pending := e :: w.pending } twice := by
  obtain ⟨recorded, hcloses, hrows⟩ := h
  refine ⟨recorded, hdb.trans ?_, hrows⟩
  have hpending : pendingCloses { w with db, pending := e :: w.pending } = c :: w.pendingCloses := by
    simp only [pendingCloses, List.filterMap_cons, hc]
  rw [hpending]
  exact hcloses.cons c

theorem other {db : Db} (h : w.Kept twice) (hdb : db.closes.Perm w.db.closes) : Kept { w with db } twice := by
  obtain ⟨recorded, hcloses, hrows⟩ := h
  exact ⟨recorded, hdb.trans hcloses, hrows⟩

theorem record {e : ClosedEvent} (h : w.Kept twice) (he : e ∈ w.pending) :
    Kept { w with summaries := recordClosedTrade e w.summaries, pending := w.pending.erase e } twice := by
  obtain ⟨recorded, hcloses, hrows⟩ := h
  have hpending : w.pendingCloses.Perm (e.close.toList ++ (w.pending.erase e).filterMap ClosedEvent.close) := by
    have hperm := (List.perm_cons_erase he).filterMap ClosedEvent.close
    rw [List.filterMap_cons] at hperm
    cases hc : e.close <;> rw [hc] at hperm <;> exact hperm
  rw [recordClosedTrade_eq]
  cases hc : e.close with
  | none =>
    rw [hc] at hpending
    exact ⟨recorded, hcloses.trans (hpending.append_right recorded), hrows⟩
  | some c =>
    rw [hc] at hpending
    refine ⟨c :: recorded, (hcloses.trans (hpending.append_right recorded)).trans ?_, fun key => ?_⟩
    · exact List.perm_middle.symm
    · obtain ⟨extra, hextra, hholds⟩ := hrows key
      refine ⟨extra, hextra, ?_⟩
      dsimp only
      rw [find?_upsertDailySummary]
      by_cases hk : key = c.key
      · have hpnls : pnlsOf key (c :: recorded) = c.pnl :: pnlsOf key recorded := by
          rw [pnlsOf, List.filter_cons_of_pos (by simp [hk])]
          rfl
        rw [if_pos hk, hpnls, ← hk]
        exact (hholds.add key c.pnl).perm List.perm_middle.symm
      · have hpnls : pnlsOf key (c :: recorded) = pnlsOf key recorded := by
          rw [pnlsOf, List.filter_cons_of_neg (by simpa using Ne.symm hk)]
          rfl
        rw [if_neg hk, hpnls]
        exact hholds

/-- A write that leaves the totals as they are. -/
theorem congr {s : Summaries} (h : w.Kept twice)
    (hs : ∀ key, (s.find? key).map DailySummary.totals = (w.summaries.find? key).map DailySummary.totals) :
    Kept { w with summaries := s } twice := by
  obtain ⟨recorded, hcloses, hrows⟩ := h
  refine ⟨recorded, hcloses, fun key => ?_⟩
  obtain ⟨extra, hextra, hholds⟩ := hrows key
  exact ⟨extra, hextra, hholds.congr (hs key)⟩

theorem updateMaxDrawdown {row : DailySummary} {maxDd : Decimal} (h : w.Kept twice)
    (hrow : w.summaries.find? row.key = some row) :
    Kept { w with summaries := w.summaries.set { row with maxDrawdown := maxDd } } twice := by
  refine h.congr fun key => ?_
  have hset : (w.summaries.set { row with maxDrawdown := maxDd }).find? key =
      if key = row.key then some { row with maxDrawdown := maxDd } else w.summaries.find? key :=
    Lib.Table.find?_set (t := w.summaries) (v := { row with maxDrawdown := maxDd }) (w := row) hrow key
  rw [hset]
  split
  · rename_i hk
    rw [hk, hrow]
    rfl
  · rfl

theorem insertMaxDrawdown {row : DailySummary} (h : w.Kept twice) (hcounted : Counted (.insertMaxDrawdown row)) :
    Kept { w with summaries := w.summaries.upsert row fun old => { old with maxDrawdown := row.maxDrawdown } }
      (if (w.summaries.find? row.key).isNone then Function.update twice row.key row.tradeCount.toNat else twice) := by
  have hfind := Lib.Table.find?_upsert w.summaries row
    (f := fun old => { old with maxDrawdown := row.maxDrawdown }) fun _ => rfl
  cases hrow : w.summaries.find? row.key with
  | some old =>
    refine h.congr fun key => ?_
    rw [hfind, hrow]
    split
    · rename_i hk
      rw [hk, hrow]
      rfl
    · rfl
  | none =>
    obtain ⟨recorded, hcloses, hrows⟩ := h
    obtain ⟨pnls, hne, htotals⟩ := hcounted
    refine ⟨recorded, hcloses, fun key => ?_⟩
    obtain ⟨extra, hextra, hholds⟩ := hrows key
    dsimp only
    rw [hfind, hrow]
    by_cases hk : key = row.key
    · rw [hk, hrow] at hholds
      have hnone : pnlsOf row.key recorded = [] := (List.append_eq_nil_iff.mp hholds).2
      refine ⟨pnls, ?_, ?_⟩
      · have hcount : row.tradeCount = pnls.length := congrArg Prod.fst htotals
        simp [hk, hcount]
      · rw [if_pos hk, hk, hnone, List.append_nil]
        exact ⟨hne, htotals⟩
    · rw [if_neg hk]
      refine ⟨extra, ?_, hholds⟩
      simpa [hk] using hextra

theorem rebuild {date : NaiveDate} {s : Summaries} (h : w.Kept twice)
    (hs : (w.summaries.filter fun row => row.key.date ≠ date).append (dayRows w.db date) = some s) :
    Kept { w with summaries := s }
      fun key => if key.date = date then (pnlsOf key w.pendingCloses).length else twice key := by
  obtain ⟨recorded, hcloses, hrows⟩ := h
  refine ⟨recorded, hcloses, fun key => ?_⟩
  obtain ⟨extra, hextra, hholds⟩ := hrows key
  have hfilter : (w.summaries.filter fun row => row.key.date ≠ date).find? key =
      if key.date ≠ date then w.summaries.find? key else none := by
    rw [Lib.Table.find?_filter (t := w.summaries) (q := fun key => key.date ≠ date) fun _ => rfl]
    simp only [decide_eq_true_eq]
  dsimp only
  rw [Lib.Table.find?_append hs, hfilter]
  by_cases hk : key.date = date
  · refine ⟨pnlsOf key w.pendingCloses, by rw [if_pos hk], ?_⟩
    have hrebuilt := (holds_dayRows w.db key).perm (pnlsOf_perm hcloses)
    rw [pnlsOf_append, hk] at hrebuilt
    simpa [hk] using hrebuilt
  · have hnone : (dayRows w.db date).find? (fun row => row.key = key) = none := by
      refine List.find?_eq_none.mpr fun row hrow heq => hk ?_
      rw [← of_decide_eq_true heq]
      exact dayRows_date hrow
    refine ⟨extra, by rw [if_neg hk]; exact hextra, ?_⟩
    rw [hnone]
    simpa [hk] using hholds

end DayBook.Kept

namespace SummaryRun

variable {w₀ : DayBook} {tasks : Nat → SummaryTask}

/-- The protocol of tasks that insert only what is counted. -/
def counting : Protocol SummaryCalls Unit where
  allowed _ q := Counted q
  next _ _ _ := ()

theorem Of.counted {h : SummaryRun} (hv : h.Of w₀ tasks) {i : Nat} {q : SummarySql} {r : Except Error q.Ok}
    {c : Config SummaryCalls DayBook (Except Error Unit)} (hs : Step dayBookSys h.last (.call i q r) c) : Counted q :=
  have hmeets : Lib.Prog.Meets counting () (tasks i).prog fun _ _ => True :=
    ((tasks i).counted.meets (A := counting) (p := ()) fun _ hc => ⟨hc, fun _ => rfl⟩).mono fun _ _ _ => trivial
  @History.Valid.allowed _ _ _ _ _ _ _ counting (fun _ => ()) _ i hmeets h hv q r c hs

/-- Every write of a run keeps to the count. -/
theorem kept_step {c c' : Config SummaryCalls DayBook (Except Error Unit)} {l : Label SummaryCalls DayMove}
    {twice : SummaryKey → Nat} (h : c.world.Kept twice) (hs : Step dayBookSys c l c')
    (hcounted : ∀ i q r, l = .call i q r → Counted q) : c'.world.Kept (countStep twice c l) := by
  cases l with
  | move m =>
    obtain ⟨hm, -⟩ := hs
    have hmoved : c'.world.Kept twice := by
      cases m with
      | close now accountId event margin pnlAmount exitPrice exitAt exitReason =>
        obtain ⟨hreports, htx, hw⟩ := hm
        obtain ⟨close, hclose, hdb⟩ := hreports.closes htx
        rw [hw]
        exact h.close hclose hdb
      | record event =>
        obtain ⟨he, hw⟩ := hm
        rw [hw]
        exact h.record he
      | other db =>
        obtain ⟨hdb, hw⟩ := hm
        rw [hw]
        exact h.other hdb
    exact hmoved
  | call i q r =>
    rcases hs.1 with ⟨a, s, rfl, htx, hw⟩ | ⟨e, rfl, hw⟩
    · have hq := hcounted i q _ rfl
      rw [hw]
      cases q with
      | fetchClosedTrades date =>
        obtain ⟨-, rfl⟩ := Prod.mk.inj (Option.some.inj htx)
        exact h
      | updateMaxDrawdown key maxDd =>
        simp only [SummarySql.tx] at htx
        split at htx
        · rename_i row hrow
          obtain ⟨-, rfl⟩ := Prod.mk.inj (Option.some.inj htx)
          have hkey : row.key = key := Lib.Table.find?_some_key (t := c.world.summaries) hrow
          exact h.updateMaxDrawdown (hkey ▸ hrow)
        · obtain ⟨-, rfl⟩ := Prod.mk.inj (Option.some.inj htx)
          exact h
      | insertMaxDrawdown row =>
        obtain ⟨-, rfl⟩ := Prod.mk.inj (Option.some.inj htx)
        exact h.insertMaxDrawdown hq
      | rebuild date =>
        obtain ⟨s', hs', heq⟩ := Option.map_eq_some_iff.mp htx
        obtain ⟨-, rfl⟩ := Prod.mk.inj heq
        exact h.rebuild hs'
    · rw [hw]
      cases q <;> exact h

theorem Of.kept (hagrees : ∀ key, w₀.Agrees key) (hpending : w₀.pending = []) {h : SummaryRun}
    (hv : h.Of w₀ tasks) : h.world.Kept h.countedTwice := by
  refine History.Valid.invariant (P := fun _ _ _ => True) (J := fun h : SummaryRun => h.world.Kept h.countedTwice) ?_
    (fun h l c hv _ ih hs _ => ?_) hv (.of_forall (fun _ _ _ => trivial) h)
  · refine ⟨w₀.db.closes, ?_, fun key => ⟨[], rfl, ?_⟩⟩
    · show w₀.db.closes.Perm (w₀.pendingCloses ++ w₀.db.closes)
      rw [DayBook.pendingCloses, hpending]
      exact List.Perm.refl _
    · exact (holds_dayRows w₀.db key).congr (hagrees key)
  · refine kept_step ih hs fun i q r hl => ?_
    subst hl
    exact Of.counted hv hs

end SummaryRun

/-- In every run from summaries that agree with the trades, once the recorder has added every close: a row
agrees with the trades of its day and group iff none of them is counted twice, that is, iff it was not
built by a drawdown run or a rebuild from closes the recorder had yet to add. -/
theorem summaries_agree_iff {w₀ : DayBook} {tasks : Nat → SummaryTask} (hagrees : ∀ key, w₀.Agrees key)
    (hstart : w₀.pending = []) {h : SummaryRun} (hv : h.Of w₀ tasks) (hdone : h.world.pending = [])
    (key : SummaryKey) : h.world.Agrees key ↔ h.countedTwice key = 0 := by
  obtain ⟨recorded, hcloses, hrows⟩ := hv.kept hagrees hstart
  obtain ⟨extra, hextra, hholds⟩ := hrows key
  rw [DayBook.pendingCloses, hdone] at hcloses
  have hrow := hholds.perm ((pnlsOf_perm hcloses.symm).append_left extra)
  rw [DayBook.Agrees, hrow.totals_eq_iff (holds_dayRows h.world.db key), ← hextra, List.length_eq_zero_iff]

/-! ## A drawdown run before the recorder -/

instance (e : ClosedEvent) (db : Db) (pnlAmount exitPrice : Decimal) (exitAt : DateTime) (exitReason : ExitReason) :
    Decidable (e.Reports db pnlAmount exitPrice exitAt exitReason) :=
  decidable_of_iff ((∃ r ∈ db.trades.find? e.trade.id, e.trade.terms = r.terms) ∧
      (∃ a ∈ db.accounts.find? e.trade.accountId, e.live = some a.live) ∧
      e.trade.exitPrice = some exitPrice ∧ e.trade.exitAt = some exitAt ∧ e.trade.pnlAmount = some pnlAmount ∧
        e.trade.exitReason = some exitReason)
    ⟨fun ⟨hrow, haccount, hexit⟩ => ⟨hrow, haccount, hexit⟩, fun h => ⟨h.row, h.account, h.exit⟩⟩

/-- Task `i` executes its statement. -/
def executes (i : Nat) : Lib.Input SummaryCalls DayBook DayMove :=
  .call i fun w q => (q.tx w.db w.summaries).map fun (a, s) => (.ok a, { w with summaries := s })

/-- A close is committed and its event sent. -/
def commits (event : ClosedEvent) (margin pnlAmount exitPrice : Decimal) (exitAt : DateTime)
    (exitReason : ExitReason) : Lib.Input SummaryCalls DayBook DayMove :=
  .move (.close exitAt event.trade.accountId event margin pnlAmount exitPrice exitAt exitReason) fun w =>
    match (persistClosedTradeTx event.trade.accountId event.trade margin pnlAmount exitPrice exitAt exitReason).run
      exitAt w.db with
    | .ok ((), db) =>
      if event.Reports w.db pnlAmount exitPrice exitAt exitReason then
        some { w with db, pending := event :: w.pending }
      else none
    | .error _ => none

/-- The recorder adds a close. -/
def records (event : ClosedEvent) : Lib.Input SummaryCalls DayBook DayMove :=
  .move (.record event) fun w =>
    if event ∈ w.pending then
      some { w with summaries := recordClosedTrade event w.summaries, pending := w.pending.erase event }
    else none

theorem executes_sound (i : Nat) : (executes i).Sound dayBookSys := by
  intro w q r w' h
  obtain ⟨⟨a, s⟩, htx, heq⟩ := Option.map_eq_some_iff.mp h
  obtain ⟨rfl, rfl⟩ := Prod.mk.inj heq
  exact .inl ⟨a, s, rfl, htx, rfl⟩

theorem commits_sound (event : ClosedEvent) (margin pnlAmount exitPrice : Decimal) (exitAt : DateTime)
    (exitReason : ExitReason) : (commits event margin pnlAmount exitPrice exitAt exitReason).Sound dayBookSys := by
  intro w w' h
  dsimp only at h
  split at h
  · rename_i db hdb
    split at h
    · rename_i hreports
      rw [← Option.some.inj h]
      exact ⟨hreports, hdb, rfl⟩
    · cases h
  · cases h

theorem records_sound (event : ClosedEvent) : (records event).Sound dayBookSys := by
  intro w w' h
  dsimp only at h
  split at h
  · rename_i hmem
    rw [← Option.some.inj h]
    exact ⟨hmem, rfl⟩
  · cases h

/-- A close with a profit of 20. -/
def sampleClosedEvent : ClosedEvent where
  trade := (sampleTrade.settle 110 0 20 .manual 0).toTrade
  live := some true

/-- The sample database before its close. -/
def sampleDayBook : DayBook := ⟨sampleOpenDb, .empty, []⟩

/-- The close of the sample trade. -/
def sampleCommit : Lib.Input SummaryCalls DayBook DayMove := commits sampleClosedEvent 20 20 110 0 .manual

/-- The summary of the sample close. -/
def sampleSummaryKey : SummaryKey := ⟨0, "donchian", "FX_BTC_JPY", true, .bitflyerCfd, some 1⟩

/-- A run of drawdown jobs from the sample database. -/
def sampleSummaryRun (inputs : List (Lib.Input SummaryCalls DayBook DayMove)) : SummaryRun :=
  Lib.play ⟨sampleDayBook, fun _ => (SummaryTask.drawdown 0).prog⟩ inputs

theorem sampleDayBook_agrees (key : SummaryKey) : sampleDayBook.Agrees key := by
  have hcloses : sampleOpenDb.closes = [] := by decide +kernel
  simp only [DayBook.Agrees, sampleDayBook, dayRows, Db.closedOn, hcloses]
  rfl

/-- The recorder adds the close before the drawdown run. -/
theorem sampleRecordedFirst_agrees :
    (sampleSummaryRun [sampleCommit, records sampleClosedEvent, executes 0, executes 0]).world.Agrees
      sampleSummaryKey := by
  refine (@summaries_agree_iff _ (fun _ => .drawdown 0) sampleDayBook_agrees rfl _ (Lib.play_valid _ _ ?_)
    (by decide +kernel) sampleSummaryKey).mpr (by decide +kernel)
  simp only [List.forall_mem_cons, List.not_mem_nil, false_implies, implies_true, and_true]
  exact ⟨commits_sound _ _ _ _ _ _, records_sound _, executes_sound 0, executes_sound 0⟩

/-- The drawdown run finds the close and inserts the row, and the recorder adds it again: two trades with a
profit of 40 in place of one with 20. -/
theorem sampleDrawdownFirst_counts_twice :
    let h := sampleSummaryRun [sampleCommit, executes 0, executes 0, executes 0, records sampleClosedEvent]
    h.Of sampleDayBook (fun _ => .drawdown 0) ∧ (∀ key, sampleDayBook.Agrees key) ∧ sampleDayBook.pending = [] ∧
      h.world.pending = [] ∧
      (h.world.summaries.find? sampleSummaryKey).map DailySummary.totals = some (2, 2, 40) ∧
      ((dayRows h.world.db 0).find? fun row => row.key = sampleSummaryKey).map DailySummary.totals = some (1, 1, 20) ∧
      ¬ h.world.Agrees sampleSummaryKey := by
  refine ⟨Lib.play_valid _ _ ?_, sampleDayBook_agrees, rfl, by decide +kernel, by decide +kernel, by decide +kernel, ?_⟩
  · simp only [List.forall_mem_cons, List.not_mem_nil, false_implies, implies_true, and_true]
    exact ⟨commits_sound _ _ _ _ _ _, executes_sound 0, executes_sound 0, executes_sound 0, records_sound _⟩
  · unfold DayBook.Agrees
    decide +kernel

end AutoTrader
