import AutoTrader.Db.Journal
import AutoTrader.Executor.Settlement

/-!
# The account journal in every run

Every run is a sequence of the transactions of `Db/Journal.lean` and of writes that move no balance
(`Run.Of.commits`), so the journal of every account leads from its initial balance to its current one. The
events of a trade that was opened and closed in the run sum up to its profit less the fees that were applied
to it, and so does the cash of the events that `getTradeEvents` makes of them (`account_journal`).
-/

namespace AutoTrader

open Lib (Config History Label Step)
open Relation (ReflTransGen)

variable {ε : Type} {E : ExchangeModel ε} {actors : Nat → Actor} {w₀ : World ε} {id : Uuid}

/-! ## The fees of a trade in the journal -/

/-- The sum of the fee events of a trade. -/
def Db.feeTotal (db : Db) (id : Uuid) : Decimal :=
  totalAmount (db.accountEvents.filter fun e => e.tradeId = id) fun kind => kind.feeKind.isSome

/-- The fee that a query that committed has applied to the trade. -/
def Query.feeApplied (id : Uuid) : (q : Query) → q.Ok → Decimal
  | .applyOvernightFee _ tradeId fee, some _ | .applySfdFee _ tradeId fee _, some _
  | .applySwapFee _ tradeId fee _, some _ => if tradeId = id then fee else 0
  | _, _ => 0

section

variable {now : DateTime} {db db' : Db}

theorem feeTotal_cons (db : Db) {e : AccountEvent} (he : db'.accountEvents = e :: db.accountEvents) :
    db'.feeTotal id = (if e.tradeId = id ∧ e.eventType.feeKind.isSome then e.amount else 0) + db.feeTotal id := by
  simp only [Db.feeTotal, totalAmount, he, List.filter_cons]
  by_cases hid : e.tradeId = id
  · cases hk : e.eventType.feeKind <;> simp [hid, hk]
  · simp [hid]

theorem feeTotal_same (he : db'.accountEvents = db.accountEvents) : db'.feeTotal id = db.feeTotal id := by
  simp only [Db.feeTotal, he]

theorem applyFeeInner_feeTotal {accountId tradeId : Uuid} {fee : Decimal} {kind : EventType} {at' : Option DateTime}
    {o : Option Decimal} (hkind : kind.feeKind.isSome)
    (h : (applyFeeInner accountId tradeId fee kind at').run now db = .ok (o, db')) :
    db'.feeTotal id = db.feeTotal id - if o.isSome ∧ tradeId = id then fee else 0 := by
  rcases applyFeeInner_ok h with ⟨rfl, rfl⟩ | ⟨ho, r, a, -, -, -, -, rfl⟩
  · simp
  · rw [feeTotal_cons _ rfl]
    simp only [ho, hkind, and_true, true_and]
    split <;> ring

theorem Query.feeTotal_of_ok {q : Query} {a : q.Ok} (h : q.tx.run now db = .ok (a, db')) :
    db'.feeTotal id = db.feeTotal id - q.feeApplied id a := by
  have hw := Query.wrote_of_ok h
  cases q with
  | getAccount _ | listActive =>
    have hw : db' = db := hw
    rw [hw]
    exact (sub_zero _).symm
  | getOpenTradesByAccount _ | selectUnsettled _ => rw [hw.1]; exact (sub_zero _).symm
  | acquireCloseLock _ _ => rcases hw with ⟨u, -, -, -, rfl⟩ | ⟨-, rfl⟩ <;> exact (sub_zero _).symm
  | releaseCloseLock _ => rcases hw with ⟨u, -, -, rfl⟩ | ⟨-, rfl⟩ <;> exact (sub_zero _).symm
  | addFees _ _ =>
    obtain ⟨u, -, rfl⟩ := hw
    exact (sub_zero _).symm
  | applyOvernightFee _ tradeId fee | applySfdFee _ tradeId fee _ | applySwapFee _ tradeId fee _ =>
    refine (applyFeeInner_feeTotal rfl h).trans ?_
    cases a <;> simp [feeApplied]
  | persistOpenTrade _ _ _ =>
    obtain ⟨trades, b, ns, -, -, -, rfl⟩ := hw
    rw [feeTotal_cons _ rfl, if_neg fun h => absurd h.2 nofun, zero_add]
    exact (sub_zero _).symm
  | persistClosedTrade _ _ _ _ _ _ _ =>
    obtain ⟨u, b, ns, -, -, -, rfl⟩ := hw
    rw [feeTotal_cons { db with accountEvents := _ :: db.accountEvents } rfl, feeTotal_cons db rfl,
      if_neg fun h => absurd h.2 nofun, if_neg fun h => absurd h.2 nofun, zero_add, zero_add]
    exact (sub_zero _).symm
  | closeTradeReconciled _ _ _ _ _ _ _ =>
    obtain ⟨u, b, -, -, -, rfl⟩ := hw
    rw [feeTotal_cons { db with accountEvents := _ :: db.accountEvents } rfl, feeTotal_cons db rfl,
      if_neg fun h => absurd h.2 nofun, if_neg fun h => absurd h.2 nofun, zero_add, zero_add]
    exact (sub_zero _).symm

end

/-! ## The events of a closed trade -/

section

variable {db : Db} {rows : List AccountEvent}

theorem EventRows.amounts (h : db.EventRows id rows) (kind : EventType) :
    ((rows.filter fun e => e.eventType = kind).map AccountEvent.amount).Perm (db.amounts id kind) := by
  have hfilter := h.1.filter fun e => decide (e.eventType = kind)
  rw [List.filter_filter] at hfilter
  refine (hfilter.map _).trans (List.Perm.of_eq ?_)
  simp only [Db.amounts, Bool.and_comm]

theorem EventRows.singleton {kind : EventType} {amount : Decimal} (h : db.EventRows id rows)
    (hamounts : db.amounts id kind = [amount]) :
    firstAmount rows kind = some amount ∧ totalAmount rows (· = kind) = amount := by
  have hperm := EventRows.amounts h kind
  rw [hamounts, List.perm_singleton] at hperm
  refine ⟨?_, ?_⟩
  · rw [firstAmount, ← List.head?_filter, ← List.head?_map, hperm]
    rfl
  · simp only [totalAmount, hperm, List.sum_singleton]

/-- A trade whose margin was locked and released once, and that was closed once. -/
theorem totalCash_of_closed {trade : Trade} {margin pnl : Decimal} (hrows : db.EventRows id rows)
    (hlock : db.amounts id .marginLock = [-margin]) (hrelease : db.amounts id .marginRelease = [margin])
    (hclose : db.amounts id .tradeClose = [pnl]) (hexit : trade.exitAt.isSome ∧ trade.exitPrice.isSome) :
    totalCash (getTradeEvents trade rows) = (rows.map AccountEvent.amount).sum ∧
      (rows.map AccountEvent.amount).sum = pnl + db.feeTotal id := by
  obtain ⟨hfirstLock, htotalLock⟩ := EventRows.singleton hrows hlock
  obtain ⟨hfirstRelease, htotalRelease⟩ := EventRows.singleton hrows hrelease
  obtain ⟨hfirstClose, htotalClose⟩ := EventRows.singleton hrows hclose
  obtain ⟨exitAt, hat⟩ := Option.isSome_iff_exists.mp hexit.1
  obtain ⟨exitPrice, hprice⟩ := Option.isSome_iff_exists.mp hexit.2
  have hfees : totalAmount rows (fun kind => kind.feeKind.isSome) = db.feeTotal id :=
    ((hrows.1.filter _).map _).sum_eq
  have hsum : (rows.map AccountEvent.amount).sum = pnl + db.feeTotal id := by
    rw [totalAmount_split, hfees, htotalLock, htotalRelease, htotalClose]
    ring
  refine ⟨?_, hsum⟩
  have hcash : totalCash (getTradeEvents trade rows) = -margin + (totalCash (feeEvents rows) + (margin + pnl)) := by
    simp [totalCash, getTradeEvents, hat, hprice, hfirstLock, hfirstRelease, hfirstClose, closeCash]
  rw [hcash, totalCash_feeEvents, hfees, hsum]
  ring

end

/-! ## Runs -/

theorem sameBalances_setLeverage (j : Uuid) (k : Decimal) (db : Db) : db.SameBalances (setLeverage j k db) := by
  refine ⟨setLeverage_accountEvents j k _, fun i account ha => ?_⟩
  simp only [setLeverage]
  split
  · rename_i b hb
    obtain rfl := Db.account_id hb
    have hset := Lib.Table.find?_set (v := { b with leverage := k }) hb i
    by_cases hid : i = b.id
    · rw [hid, hb] at ha
      cases ha
      exact ⟨_, hset.trans (if_pos hid), rfl, rfl⟩
    · exact ⟨account, hset.trans (by rw [if_neg hid]; exact ha), rfl, rfl⟩
  · exact ⟨account, ha, rfl, rfl⟩

/-- Every trade that is closed has an exit. -/
def Exited (db : Db) : Prop :=
  ∀ id r, db.trades.find? id = some r → r.status = .closed →
    r.exitAt.isSome ∧ r.exitPrice.isSome ∧ r.pnlAmount.isSome

theorem Exited.query {now : DateTime} {db db' : Db} {a : Actor} {s : Stage} {q : Query} {o : q.Ok} (h : Exited db)
    (hq : a.MayAsk s q) (hw : q.wrote now db o db') : Exited db' := by
  intro id r' hr' hclosed
  rcases Query.row_of_wrote hw hr' with ⟨r, hr, hstep⟩ | ⟨accountId, trade, margin, rfl, -, rfl⟩
  · cases hstep with
    | same => exact h id _ hr hclosed
    | lock => cases hclosed
    | reopen => cases hclosed
    | settle => exact ⟨rfl, rfl, rfl⟩
    | charge fee =>
      have hexit := h id _ hr hclosed
      exact hexit
  · cases hq with
    | openTrade _ _ _ hopen _ => exact absurd (hopen.symm.trans hclosed) nofun

namespace Run

/-- The fees that the queries of a run have applied to the trade. -/
def feesApplied (id : Uuid) : Run ε → Decimal
  | .start _ => 0
  | .step h (.call _ (.db q) (.ok a)) _ => feesApplied id h + q.feeApplied id a
  | .step h _ _ => feesApplied id h

variable {h : Run ε} {l : Label Calls Move} {c : Config Calls (World ε) (Except Error Outcome)}

theorem feesApplied_quiet (id : Uuid) (h : Run ε) (hl : quietStep l)
    (c : Config Calls (World ε) (Except Error Outcome)) : feesApplied id (.step h l c) = feesApplied id h := by
  rcases l with ⟨i, q, r⟩ | m
  · cases q with
    | db q => exact absurd hl not_false
    | _ => rfl
  · rfl

/-- A step commits a query or moves no balance and applies no fee. -/
theorem journal_cases (id : Uuid) (hs : Step (worldSys E) h.last l c) :
    (∃ i q a, l = .call i (.db q) (.ok a) ∧ q.tx.run h.world.now h.world.db = .ok (a, c.world.db)) ∨
      h.world.db.SameBalances c.world.db ∧ feesApplied id (.step h l c) = feesApplied id h := by
  rcases world_cases hs with ⟨i, q, a, rfl, -, -⟩ | ⟨i, q, e, rfl, hw⟩ | ⟨j, k, rfl, hw⟩ | ⟨hdb, hquiet, -⟩
  · exact .inl ⟨i, q, a, rfl, committed hs⟩
  · refine .inr ⟨?_, rfl⟩
    rw [hw]
    exact .of_eq rfl rfl
  · refine .inr ⟨?_, rfl⟩
    rw [hw]
    exact sameBalances_setLeverage j k _
  · refine .inr ⟨?_, feesApplied_quiet id h hquiet c⟩
    rw [hdb]
    exact .of_eq rfl rfl

/-- The database of a run changes by transactions on balances and by other writes. -/
theorem Of.commits : ∀ {h : Run ε}, h.Of E w₀ actors → ReflTransGen Commit w₀.db h.world.db
  | .start c, hv => by
    have hc : c = begin w₀ actors := hv
    rw [hc]
    exact .refl
  | .step h l c, hv => by
    have ih := Of.commits hv.1
    rcases journal_cases 0 hv.2 with ⟨i, q, a, -, hok⟩ | ⟨hsame, -⟩
    · exact ih.trans (Query.commits hok)
    · exact ih.tail (.other hsame)

theorem Of.feeTotal (h₀ : w₀.db.Fresh) : ∀ {h : Run ε}, h.Of E w₀ actors →
    h.world.db.feeTotal id = - feesApplied id h
  | .start c, hv => by
    have hc : c = begin w₀ actors := hv
    rw [hc]
    show w₀.db.feeTotal id = -0
    simp [Db.feeTotal, totalAmount, h₀.accountEvents]
  | .step h l c, hv => by
    have ih := Of.feeTotal h₀ hv.1
    rcases journal_cases id hv.2 with ⟨i, q, a, rfl, hok⟩ | ⟨hsame, happlied⟩
    · show c.world.db.feeTotal id = -(feesApplied id h + q.feeApplied id a)
      rw [Query.feeTotal_of_ok hok, ih]
      ring
    · rw [happlied, ← ih]
      exact feeTotal_same hsame.1

theorem Of.exited (h₀ : w₀.db.Fresh) (hv : h.Of E w₀ actors) : Exited h.world.db := by
  refine @Of.db_invariant _ E actors w₀ (fun db _ => Exited db) (fun i r hr => ?_)
    (fun _ _ _ _ _ _ _ ih hq hw => ih.query hq hw) (fun _ _ _ _ _ ih _ => ih) (fun db _ j k ih => ?_) h hv
  · exact absurd ((h₀.find? i).symm.trans hr) nofun
  · intro i r hr
    rw [setLeverage_trades] at hr
    exact ih i r hr

end Run

/-- An account without events, through any sequence of the transactions on balances: its events lead from its
initial balance to its current one, which is then the initial balance and all amounts. Every run of the tasks is
such a sequence, and in every run the cash that the events of a closed trade report is the sum of its amounts
in the journal, and this is its profit less the fees that were applied to it. -/
theorem account_journal :
    (∀ (db₀ db : Db) (account : TradingAccount), db₀.accounts.find? account.id = some account →
        account.currentBalance = account.initialBalance → db₀.eventsOf account.id = [] → ReflTransGen Commit db₀ db →
        ∃ current, db.accounts.find? account.id = some current ∧
          Chained account.initialBalance current.currentBalance (db.eventsOf account.id) ∧
          current.currentBalance = account.initialBalance + ((db.eventsOf account.id).map AccountEvent.amount).sum) ∧
      (w₀.db.Fresh → ∀ h : Run ε, h.Of E w₀ actors → ReflTransGen Commit w₀.db h.world.db ∧
        ∀ id r rows, h.world.db.trades.find? id = some r → r.status = .closed → h.world.db.EventRows id rows →
          totalCash (getTradeEvents r.toTrade rows) = (rows.map AccountEvent.amount).sum ∧
            ∃ pnl, r.pnlAmount = some pnl ∧ (rows.map AccountEvent.amount).sum = pnl - Run.feesApplied id h) := by
  refine ⟨fun db₀ db account ha hbalance hnone hc => ?_,
    fun h₀ h hv => ⟨hv.commits, fun id r rows hr hclosed hrows => ?_⟩⟩
  · obtain ⟨current, hcurrent, -, hchain⟩ := journaled_of_commits ha hbalance hnone hc
    exact ⟨current, hcurrent, hchain, hchain.sum⟩
  · have hjournal := (hv.settled h₀).journal
    obtain ⟨hat, hprice, hpnl⟩ := hv.exited h₀ id r hr hclosed
    obtain ⟨pnl, hpnl⟩ := Option.isSome_iff_exists.mp hpnl
    have hlock := hjournal id .marginLock rfl
    have hrelease := hjournal id .marginRelease rfl
    have hclose := hjournal id .tradeClose rfl
    simp only [hr, expected, hclosed, ↓reduceIte, hpnl, Option.getD_some] at hlock hrelease hclose
    obtain ⟨hcash, hsum⟩ := totalCash_of_closed hrows hlock hrelease hclose ⟨hat, hprice⟩
    refine ⟨hcash, pnl, hpnl, ?_⟩
    rw [hsum, hv.feeTotal h₀]
    ring

/-- The events of the trade of the sample. -/
theorem sampleSettlement_journal : ∃ r, sampleSettlement.world.db.trades.find? 7 = some r ∧
    ∃ pnl, r.pnlAmount = some pnl ∧
      ((sampleSettlement.world.db.accountEvents.filter fun e => e.tradeId = 7).reverse.map AccountEvent.amount).sum =
        pnl - Run.feesApplied 7 sampleSettlement := by
  have hstatus : (sampleSettlement.world.db.trades.find? 7).map (fun r => r.status) = some .closed := by decide +kernel
  obtain ⟨r, hr, hclosed⟩ := Option.map_eq_some_iff.mp hstatus
  have hrun := (@account_journal _ anyExchange _ ⟨sampleDb, (), 0⟩).2 ⟨rfl, rfl⟩ sampleSettlement
    (Run.play_of _ _ _ _)
  exact ⟨r, hr, (hrun.2 7 r _ hr hclosed ⟨List.reverse_perm _, by decide +kernel⟩).2⟩

end AutoTrader
