import AutoTrader.App.ExecutorLoop
import AutoTrader.Executor.Play

/-!
# One position for an account, a strategy and a pair

An account should have at most one trade of a strategy and a pair that is not closed
(`Db.OnePosition`). The gate of the executor loop reads the open trades only: a trade that is closing is
not among them, and a read that failed counts as none. So the rule holds in every run in which the gate
never misses a trade of the signal at hand (`one_position`), and `sampleSecondPosition_two` is a run in
which it does.
-/

namespace AutoTrader

open Lib (Config History Label Step)
open Lib.Prog (Meets)
open Lib.Table (find?_mem mem_iff_find?)

variable {ε : Type} {E : ExchangeModel ε} {actors : Nat → Actor} {w₀ : World ε} {ctx : ExecutorLoopContext}
  {signals : List Signal}

/-! ## The rule -/

/-- Two trades of one account, one strategy and one pair. -/
def Trade.SameSlot (t u : Trade) : Prop :=
  t.accountId = u.accountId ∧ t.strategyName = u.strategyName ∧ t.pair = u.pair

instance (t u : Trade) : Decidable (t.SameSlot u) := inferInstanceAs (Decidable (_ ∧ _ ∧ _))

theorem Trade.SameSlot.symm {t u : Trade} (h : t.SameSlot u) : u.SameSlot t := ⟨h.1.symm, h.2.1.symm, h.2.2.symm⟩

theorem Trade.SameSlot.trans {t u v : Trade} (h : t.SameSlot u) (h' : u.SameSlot v) : t.SameSlot v :=
  ⟨h.1.trans h'.1, h.2.1.trans h'.2.1, h.2.2.trans h'.2.2⟩

theorem Trade.sameSlot_of_terms {t u : Trade} (h : t.terms = u.terms) : t.SameSlot u :=
  show t.terms.SameSlot u.terms by rw [h]; exact ⟨rfl, rfl, rfl⟩

/-- No two trades of one account, strategy and pair are open or closing. -/
def Db.OnePosition (db : Db) : Prop :=
  ∀ r ∈ db.trades.rows, ∀ u ∈ db.trades.rows, r.status ≠ .closed → u.status ≠ .closed →
    r.toTrade.SameSlot u.toTrade → r.id = u.id

instance (db : Db) : Decidable db.OnePosition :=
  inferInstanceAs (Decidable (∀ r ∈ db.trades.rows, ∀ u ∈ db.trades.rows, r.status ≠ .closed → u.status ≠ .closed →
    r.toTrade.SameSlot u.toTrade → r.id = u.id))

/-- All trades of the account, the strategy and the pair of a trade are closed. -/
def Db.Free (db : Db) (t : Trade) : Prop := ∀ r ∈ db.trades.rows, r.toTrade.SameSlot t → r.status = .closed

/-- Whether the query opens a trade. -/
def Query.opens : Query → Option Trade
  | .persistOpenTrade _ trade _ => some trade
  | _ => none

section

variable {now : DateTime} {db db' : Db} {q : Query} {a : q.Ok}

/-- A row after a query is one from before it, or the trade that the query opens. -/
theorem row_cases (hw : q.wrote now db a db') {r' : TradeRow} (hr : r' ∈ db'.trades.rows) :
    (∃ r ∈ db.trades.rows, r'.id = r.id ∧ r'.toTrade.SameSlot r.toTrade ∧ (r.status = .closed → r'.status = .closed)) ∨
      ∃ trade, q.opens = some trade ∧ r'.toTrade = trade := by
  rcases Query.row_of_wrote hw (mem_iff_find?.mp hr) with ⟨r, hfind, hs⟩ | ⟨accountId, trade, margin, rfl, -, rfl⟩
  · refine .inl ⟨r, find?_mem hfind, (Db.trade_id hfind).symm, Trade.sameSlot_of_terms hs.terms, fun hc => ?_⟩
    exact (hs.closed hc).1
  · exact .inr ⟨trade, rfl, rfl⟩

theorem Db.Free.wrote {t : Trade} (h : db.Free t) (hw : q.wrote now db a db') (hq : q.opens = none) : db'.Free t := by
  intro r' hr' hslot
  rcases row_cases hw hr' with ⟨r, hr, -, hs, hc⟩ | ⟨trade, ho, -⟩
  · exact hc (h r hr (hs.symm.trans hslot))
  · rw [hq] at ho
    cases ho

/-- The rule is kept if what is opened is opened where there is nothing. -/
theorem Db.OnePosition.wrote (h : db.OnePosition) (hw : q.wrote now db a db')
    (hfree : ∀ trade ∈ q.opens, db.Free trade) : db'.OnePosition := by
  have old : ∀ {r' u' : TradeRow} {trade : Trade}, r'.status ≠ .closed → r'.toTrade.SameSlot u'.toTrade →
      q.opens = some trade → u'.toTrade = trade →
      ∀ r ∈ db.trades.rows, r'.toTrade.SameSlot r.toTrade → (r.status = .closed → r'.status = .closed) → False := by
    intro r' u' trade hr' hslot ho ht r hr hs hc
    rw [ht] at hslot
    exact hr' (hc (hfree trade ho r hr (hs.symm.trans hslot)))
  intro r' hr' u' hu' hrs hus hslot
  rcases row_cases hw hr' with ⟨r, hr, hrid, hrslot, hrc⟩ | ⟨trade, ho, ht⟩ <;>
    rcases row_cases hw hu' with ⟨u, hu, huid, huslot, huc⟩ | ⟨trade', ho', ht'⟩
  · rw [hrid, huid]
    exact h r hr u hu (fun hc => hrs (hrc hc)) (fun hc => hus (huc hc)) ((hrslot.symm.trans hslot).trans huslot)
  · exact (old hrs hslot ho' ht' r hr hrslot hrc).elim
  · exact (old hus hslot.symm ho ht u hu huslot huc).elim
  · rw [ho] at ho'
    have htrade : trade = trade' := Option.some.inj ho'
    show r'.toTrade.id = u'.toTrade.id
    rw [ht, ht', htrade]

end

/-! ## Runs of the loop -/

/-- The loop is task 0; the other tasks are as they are. -/
def beginLoop (w₀ : World ε) (ctx : ExecutorLoopContext) (signals : List Signal) (actors : Nat → Actor) :
    Config Calls (World ε) (Except Error Outcome) :=
  ⟨w₀, fun i => if i = 0 then (fun _ => .ok .finished) <$> ctx.run signals else (actors i).prog.run⟩

/-- `h` is a run of the loop over the signals beside the other tasks. -/
def Run.OfLoop (E : ExchangeModel ε) (w₀ : World ε) (ctx : ExecutorLoopContext) (signals : List Signal)
    (actors : Nat → Actor) (h : Run ε) : Prop :=
  h.Valid (worldSys E) (beginLoop w₀ ctx signals actors)

/-- The task opens no trade: it closes, charges, reconciles or releases one. -/
def Actor.opensNone : Actor → Bool
  | .execute _ _ => false
  | _ => true

theorem Actor.MayAsk.opens {a : Actor} {s : Stage} {q : Query} (h : a.MayAsk s q) (ha : a.opensNone) :
    q.opens = none := by
  cases h <;> first | rfl | cases ha

namespace Run

variable {h : Run ε} {l : Label Calls Move} {c : Config Calls (World ε) (Except Error Outcome)}

/-- Where every task is when the loop begins; only that of the loop is of use. -/
def undispatched (signals : List Signal) (_ : Nat) : DispatchPhase := .start signals

/-- How far the loop is. -/
def dispatch (signals : List Signal) (h : Run ε) : DispatchPhase := h.phases dispatching (undispatched signals) 0

theorem dispatch_ne {i : Nat} (hi : 0 ≠ i) (q : Calls.Call) (r : Calls.Ret q) :
    dispatch signals (.step h (.call i q r) c : Run ε) = h.dispatch signals := by
  simp only [dispatch, History.phases, Function.update_of_ne hi]

theorem dispatch_self (q : Calls.Call) (r : Calls.Ret q) :
    dispatch signals (.step h (.call 0 q r) c : Run ε) = dispatching.next (h.dispatch signals) q r := by
  simp only [dispatch, History.phases, Function.update_self]

theorem OfLoop.allowed (hv : h.OfLoop E w₀ ctx signals actors) {q : Query} {r : Except Error q.Ok}
    (hs : Step (worldSys E) h.last (.call 0 (.db q) r) c) : dispatching.allowed (h.dispatch signals) (.db q) := by
  have h₀ : Meets dispatching (undispatched signals 0) ((beginLoop w₀ ctx signals actors).thread 0) fun _ _ => True :=
    Meets.bind ((ctx.executorLoop_dispatching signals (.start signals) rfl).mono fun _ _ _ => trivial)
  exact History.Valid.allowed h₀ hv hs

theorem OfLoop.opens_none (hactors : ∀ i, (actors i).opensNone) (hv : h.OfLoop E w₀ ctx signals actors) {i : Nat}
    (hi : i ≠ 0) {q : Query} {r : Except Error q.Ok} (hs : Step (worldSys E) h.last (.call i (.db q) r) c) :
    q.opens = none := by
  have h₀ : Meets settling (starting actors i) ((beginLoop w₀ ctx signals actors).thread i) Actor.ended := by
    simp only [beginLoop, if_neg hi]
    exact (actors i).settling
  have hq : settling.allowed (h.phases settling (starting actors) i) (.db q) := History.Valid.allowed h₀ hv hs
  rw [phase_eq] at hq
  exact Actor.MayAsk.opens hq (hactors i)

end Run

/-- The gate of the loop misses no trade: when it reads, no trade of the account, of the strategy and the
pair of the signal at hand is closing, and if the read fails none is open either. -/
def GateSees (signals : List Signal) (h : Run ε) (l : Label Calls Move)
    (_ : Config Calls (World ε) (Except Error Outcome)) : Prop :=
  match l with
  | .call 0 (.db (.getOpenTradesByAccount accountId)) (.ok _) => ∀ signal ∈ (h.dispatch signals).current,
    ∀ r ∈ h.world.db.trades.rows, r.accountId = accountId → r.toTrade.isOf signal → r.status ≠ .closing
  | .call 0 (.db (.getOpenTradesByAccount accountId)) (.error _) => ∀ signal ∈ (h.dispatch signals).current,
    ∀ r ∈ h.world.db.trades.rows, r.accountId = accountId → r.toTrade.isOf signal → r.status = .closed
  | _ => True

instance (h : Run ε) (l : Label Calls Move) (c : Config Calls (World ε) (Except Error Outcome)) :
    Decidable (GateSees signals h l c) := by
  unfold GateSees
  split <;> infer_instance

/-- While the gate is passed, there is nothing where the trade of the signal would be opened. -/
def GateHolds (db : Db) (p : DispatchPhase) : Prop :=
  ∀ accountId trade, p.Clears accountId trade → db.Free trade

theorem clears_sameSlot {p : DispatchPhase} {accountId : Uuid} {trade : Trade} {signal : Signal}
    (h : p.Clears accountId trade) (hsignal : p.current = some signal) {r : TradeRow} (hr : r.toTrade.SameSlot trade) :
    r.accountId = accountId ∧ r.toTrade.isOf signal := by
  obtain ⟨s, hs, hof⟩ := h.signal
  rw [hsignal] at hs
  cases hs
  simp only [Trade.isOf, Bool.and_eq_true, decide_eq_true_eq] at hof ⊢
  exact ⟨hr.1.trans h.account, hr.2.1.trans hof.1, hr.2.2.trans hof.2⟩

/-- What the gate has read holds when it misses nothing. -/
theorem GateHolds.of_read {now : DateTime} {db : Db} {p : DispatchPhase} {accountId : Uuid} {trades : List Trade}
    (hw : (Query.getOpenTradesByAccount accountId).wrote now db trades db)
    (hsees : ∀ signal ∈ p.current, ∀ r ∈ db.trades.rows, r.accountId = accountId → r.toTrade.isOf signal →
      r.status ≠ .closing) : GateHolds db (p.saw accountId (.ok trades)) := by
  intro account trade hclears r hr hslot
  obtain ⟨signal, hsignal, -⟩ := hclears.signal
  obtain ⟨haccount, hof⟩ := clears_sameSlot hclears hsignal hslot
  obtain ⟨seen, hseen, hnone⟩ := hclears.seen
  cases hseen
  have hclosing := hsees signal hsignal r hr haccount hof
  cases hs : r.status with
  | closed => rfl
  | closing => exact absurd hs hclosing
  | «open» =>
    have := hnone signal hsignal r.toTrade (hw.2 r hr haccount hs)
    rw [hof] at this
    cases this

theorem GateHolds.of_failed {db : Db} {p : DispatchPhase} {accountId : Uuid} {e : Error}
    (hsees : ∀ signal ∈ p.current, ∀ r ∈ db.trades.rows, r.accountId = accountId → r.toTrade.isOf signal →
      r.status = .closed) : GateHolds db (p.saw accountId (.error e)) := by
  intro account trade hclears r hr hslot
  obtain ⟨signal, hsignal, -⟩ := hclears.signal
  obtain ⟨haccount, hof⟩ := clears_sameSlot hclears hsignal hslot
  obtain ⟨seen, hseen, -⟩ := hclears.seen
  cases hseen
  exact hsees signal hsignal r hr haccount hof

theorem GateHolds.of_unseen {db : Db} {p : DispatchPhase} (hp : p.seen = none) : GateHolds db p := by
  intro account trade hclears
  obtain ⟨seen, hseen, -⟩ := hclears.seen
  rw [hp] at hseen
  cases hseen

theorem GateHolds.wrote {now : DateTime} {db db' : Db} {p : DispatchPhase} {q : Query} {a : q.Ok} (h : GateHolds db p)
    (hw : q.wrote now db a db') (hq : q.opens = none) : GateHolds db' p :=
  fun account trade hclears => (h account trade hclears).wrote hw hq

section

variable {h : Run ε} {l : Label Calls Move} {c : Config Calls (World ε) (Except Error Outcome)}

/-- The queries of the loop. -/
theorem dispatching_cases {p : DispatchPhase} {q : Query} (hq : dispatching.allowed p (.db q)) :
    (∃ accountId, q = .getOpenTradesByAccount accountId) ∨
      (∃ accountId trade margin, q = .persistOpenTrade accountId trade margin ∧ p.Clears accountId trade) ∨
      q = .listActive ∨ ∃ accountId, q = .getAccount accountId := by
  cases q with
  | getOpenTradesByAccount accountId => exact .inl ⟨accountId, rfl⟩
  | persistOpenTrade accountId trade margin => exact .inr (.inl ⟨accountId, trade, margin, rfl, hq⟩)
  | listActive => exact .inr (.inr (.inl rfl))
  | getAccount accountId => exact .inr (.inr (.inr ⟨accountId, rfl⟩))
  | _ => exact False.elim hq

/-- The rule and the gate, after a query of the loop. -/
theorem loop_step {q : Query} {r : Except Error q.Ok} (hv : h.OfLoop E w₀ ctx signals actors)
    (hs : Step (worldSys E) h.last (.call 0 (.db q) r) c) (hsees : GateSees signals h (.call 0 (.db q) r) c)
    (hone : h.world.db.OnePosition) (hgate : GateHolds h.world.db (h.dispatch signals)) :
    c.world.db.OnePosition ∧ GateHolds c.world.db (dispatching.next (h.dispatch signals) (.db q) r) := by
  have hallowed := dispatching_cases (hv.allowed hs)
  rcases Run.world_cases hs with ⟨i, q', a, he, hw, -⟩ | ⟨i, q', e, he, hw⟩ | ⟨_, _, he, -⟩ | ⟨-, hq, -⟩
  · cases he
    rcases hallowed with ⟨accountId, rfl⟩ | ⟨accountId, trade, margin, rfl, hclears⟩ | rfl | ⟨accountId, rfl⟩
    · have hdb : c.world.db = h.world.db := hw.1
      rw [hdb] at hw ⊢
      exact ⟨hone, .of_read hw hsees⟩
    · refine ⟨hone.wrote hw fun t ht => ?_, .of_unseen rfl⟩
      cases ht
      exact hgate _ _ hclears
    · exact ⟨hone.wrote hw fun t ht => (by cases ht), .of_unseen rfl⟩
    · exact ⟨hone.wrote hw fun t ht => (by cases ht), hgate.wrote hw rfl⟩
  · cases he
    rw [hw]
    refine ⟨hone, ?_⟩
    rcases hallowed with ⟨accountId, rfl⟩ | ⟨accountId, trade, margin, rfl, hclears⟩ | rfl | ⟨accountId, rfl⟩
    · exact .of_failed (e := e) hsees
    · exact .of_unseen rfl
    · exact .of_unseen rfl
    · exact hgate
  · cases he
  · exact hq.elim

end

/-- In every run of the loop over any signals, beside any tasks that open nothing, and with any answers of
the database: if the gate never misses a trade of the signal at hand, then in every state an account has at
most one trade of a strategy and a pair that is not closed. -/
theorem one_position (h₀ : w₀.db.OnePosition) (hactors : ∀ i, (actors i).opensNone) {h : Run ε}
    (hv : h.OfLoop E w₀ ctx signals actors) (hsees : h.Steps (GateSees signals)) :
    h.Always fun c => c.world.db.OnePosition := by
  suffices hboth : (h.Always fun c => c.world.db.OnePosition) ∧ GateHolds h.world.db (h.dispatch signals) from hboth.1
  refine History.Valid.invariant (J := fun h : Run ε => (h.Always fun c => c.world.db.OnePosition) ∧
    GateHolds h.world.db (h.dispatch signals)) ?_ (fun h l c hv _ ih hs hsees => ?_) hv hsees
  · exact ⟨h₀, .of_unseen rfl⟩
  obtain ⟨hall, hgate⟩ := ih
  have hone : h.world.db.OnePosition := hall.last
  suffices hnew : c.world.db.OnePosition ∧ GateHolds c.world.db (Run.dispatch signals (.step h l c)) from
    ⟨⟨hall, hnew.1⟩, hnew.2⟩
  rcases Run.world_cases hs with ⟨i, q, a, rfl, hw, -⟩ | ⟨i, q, e, rfl, hw⟩ | ⟨j, k, rfl, hw⟩ | ⟨hw, hq, -⟩
  · by_cases hi : i = 0
    · subst hi
      rw [Run.dispatch_self]
      exact loop_step hv hs hsees hone hgate
    · rw [Run.dispatch_ne (Ne.symm hi)]
      have hopens := Run.OfLoop.opens_none hactors hv hi hs
      refine ⟨hone.wrote hw fun t ht => ?_, hgate.wrote hw hopens⟩
      rw [hopens] at ht
      cases ht
  · by_cases hi : i = 0
    · subst hi
      rw [Run.dispatch_self]
      exact loop_step hv hs hsees hone hgate
    · rw [Run.dispatch_ne (Ne.symm hi), hw]
      exact ⟨hone, hgate⟩
  · have htrades : c.world.db.trades = h.world.db.trades := by rw [hw]; exact setLeverage_trades j k _
    simp only [Db.OnePosition, GateHolds, Db.Free, htrades]
    exact ⟨hone, hgate⟩
  · rw [hw]
    refine ⟨hone, ?_⟩
    cases l with
    | move m => exact hgate
    | call i q r =>
      by_cases hi : i = 0
      · subst hi
        rw [Run.dispatch_self]
        cases q <;> first | exact hgate | exact hq.elim
      · rw [Run.dispatch_ne (Ne.symm hi)]
        exact hgate

/-! ## A second position -/

/-- A context in which every gate but that of the open positions lets the signal of the sample pass. -/
def sampleContext : ExecutorLoopContext where
  exchangeApis _ := some ⟨false⟩
  exchangePairs _ := ["FX_BTC_JPY"]
  positionSizer := (sampleTrader true).positionSizer
  exchangeLiquidationLevels _ := some 1
  liveForcesDryRun := true
  liveEnabled := true
  priceFreshnessSecs := 60

/-- The loop over the signals, beside a task that closes trade 7. -/
def sampleLoop (db : Db) (signals : List Signal) (cues : List (Cue Unit)) : Run Unit :=
  Lib.play (beginLoop ⟨db, (), 0⟩ sampleContext signals fun _ => .closePosition (sampleTrader true) 7 .slHit)
    (cues.map (Cue.input anyExchange))

theorem sampleLoop_of (db : Db) (signals : List Signal) (cues : List (Cue Unit)) :
    (sampleLoop db signals cues).OfLoop anyExchange ⟨db, (), 0⟩ sampleContext signals
      fun _ => .closePosition (sampleTrader true) 7 .slHit := by
  refine Lib.play_valid _ _ fun x hx => ?_
  obtain ⟨cue, -, rfl⟩ := List.mem_map.mp hx
  exact cue.sound anyExchange

/-- The loop opens a trade for the signal, once it is past the gates. -/
def sampleDispatch : List (Cue Unit) :=
  [.commit 0, .age 0 (some 0), .commit 0, .commit 0, .commit 0, .price 0 99 100, .clock 0, .price 0 99 100, .clock 0,
    .uuid 0 8, .commit 0]

/-- The position of the sample is closing when the signal arrives. -/
theorem sampleSecondPosition_two :
    let h := sampleLoop sampleOpenDb [sampleSignal] (.commit 1 :: sampleDispatch)
    h.OfLoop anyExchange ⟨sampleOpenDb, (), 0⟩ sampleContext [sampleSignal]
        (fun _ => .closePosition (sampleTrader true) 7 .slHit) ∧
      ¬ h.Always fun c => c.world.db.OnePosition := by
  intro h
  refine ⟨sampleLoop_of _ _ _, fun hall => ?_⟩
  have htwo : ¬ h.world.db.OnePosition := by decide +kernel
  exact htwo hall.last

/-- The gate reads the open trade 7 and ignores the first signal; then the trade is closed, and the second signal
opens one. -/
def sampleReopen : List (Cue Unit) :=
  [.commit 0, .age 0 (some 0), .commit 0, .commit 0, .commit 1, .price 1 110 111, .clock 1, .commit 1] ++ sampleDispatch

theorem sampleReopen_one : let h := sampleLoop sampleOpenDb [sampleSignal, sampleSignal] sampleReopen
    (h.world.db.trades.rows.map fun r => (r.id, r.status)) = [(8, .open), (7, .closed)] ∧
      h.Always fun c => c.world.db.OnePosition := by
  refine ⟨by decide +kernel, ?_⟩
  exact one_position (by decide) (fun _ => rfl) (sampleLoop_of _ _ _) (by decide +kernel)

end AutoTrader
