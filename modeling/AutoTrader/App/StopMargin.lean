import AutoTrader.App.Liquidation
import AutoTrader.Executor.Sizing
import Mathlib.Algebra.Order.BigOperators.Group.List

/-!
# The maintenance ratio at the stops

An open is sized from the free balance of the account, so that its margin and its loss at the stop fit into
that. What the liquidation level asks of the trades that are open already is not part of it. So an account
whose opens are filled as they were sized stays above the liquidation level up to the stops iff the margins
at that level and the losses at the stops of all its trades fit into the balance it started with, and this
is so if the trades before the last one ask for no more than their own margins (`safe_at_stops`).
-/

namespace AutoTrader

open Lib (Config History Label Prog Step)
open Lib.Prog (Meets)

variable {ε : Type} {E : ExchangeModel ε} {w₀ : World ε}

/-! ## The ratio of the account -/

/-- The price is between the entry and the stop. -/
def Trade.Within (t : Trade) (price : Decimal) : Prop :=
  match t.direction with
  | .long => t.stopLoss ≤ price ∧ price ≤ t.entryPrice
  | .short => t.entryPrice ≤ price ∧ price ≤ t.stopLoss

instance (t : Trade) (price : Decimal) : Decidable (t.Within price) := by
  unfold Trade.Within
  split <;> infer_instance

/-- What the liquidation level asks of a trade, together with what is lost at its stop. -/
def Trade.need (level : Decimal) (t : Trade) : Decimal := level * t.margin + t.stopLossAmount

/-- What a number of trades needs at their stops. -/
def totalNeed (level : Decimal) (ts : List Trade) : Decimal := (ts.map (Trade.need level)).sum

/-- The margins of a number of trades. -/
def totalMargin (ts : List Trade) : Decimal := (ts.map Trade.margin).sum

/-- The ratio is at least the level at all prices between the entries and the stops. -/
def SafeAtStops (level balance : Decimal) (ts : List Trade) : Prop :=
  ∀ price : Trade → Decimal, (∀ t ∈ ts, t.Within (price t)) →
    ∀ ratio ∈ computeMaintenanceRatio balance (ts.map fun t => t.valued (price t)), level ≤ ratio

/-- A trade with a margin, and a stop on the losing side of its entry. -/
structure Trade.Regular (t : Trade) : Prop where
  margin : 0 ≤ t.margin
  quantity : 0 ≤ t.quantity
  stop : t.Within t.stopLoss

namespace Trade

variable {t : Trade} {price : Decimal}

theorem unrealizedPnl_stop (t : Trade) : (t.valued t.stopLoss).unrealizedPnl = - t.stopLossAmount := by
  simp only [OpenPosition.unrealizedPnl, valued, stopLossAmount]
  cases t.direction <;>
  · dsimp only
    ring

theorem unrealizedPnl_within (hq : 0 ≤ t.quantity) (h : t.Within price) :
    - t.stopLossAmount ≤ (t.valued price).unrealizedPnl := by
  rw [← unrealizedPnl_stop]
  simp only [OpenPosition.unrealizedPnl, valued, Within] at h ⊢
  refine mul_le_mul_of_nonneg_right ?_ hq
  cases hd : t.direction <;>
  · simp only [hd] at h ⊢
    linarith

end Trade

theorem sum_requiredMargin (ts : List Trade) (price : Trade → Decimal) :
    ((ts.map fun t => t.valued (price t)).map OpenPosition.requiredMargin).sum = totalMargin ts := by
  rw [List.map_map]
  rfl

theorem totalNeed_eq (level : Decimal) (ts : List Trade) :
    totalNeed level ts = level * totalMargin ts + (ts.map Trade.stopLossAmount).sum := by
  induction ts with
  | nil => simp [totalNeed, totalMargin]
  | cons t ts ih =>
    simp only [totalNeed, totalMargin, List.map_cons, List.sum_cons, Trade.need] at ih ⊢
    rw [ih]
    ring

theorem sum_unrealizedPnl {ts : List Trade} {price : Trade → Decimal} (hregular : ∀ t ∈ ts, t.Regular)
    (h : ∀ t ∈ ts, t.Within (price t)) : - (ts.map Trade.stopLossAmount).sum ≤
      ((ts.map fun t => t.valued (price t)).map OpenPosition.unrealizedPnl).sum := by
  induction ts with
  | nil => simp
  | cons t ts ih =>
    have ht := Trade.unrealizedPnl_within (hregular t List.mem_cons_self).quantity (h t List.mem_cons_self)
    have hts := ih (fun u hu => hregular u (List.mem_cons_of_mem _ hu)) fun u hu => h u (List.mem_cons_of_mem _ hu)
    simp only [List.map_cons, List.sum_cons]
    linarith

theorem totalMargin_nonneg {ts : List Trade} (h : ∀ t ∈ ts, t.Regular) : 0 ≤ totalMargin ts := by
  refine List.sum_nonneg fun m hm => ?_
  obtain ⟨t, ht, rfl⟩ := List.mem_map.mp hm
  exact (h t ht).margin

/-- The account is above the level up to the stops iff what its trades need fits into the balance with
their margins given back. Without any margin there is no ratio. -/
theorem safeAtStops_iff {level balance : Decimal} {ts : List Trade} (hregular : ∀ t ∈ ts, t.Regular) :
    SafeAtStops level balance ts ↔ totalMargin ts = 0 ∨ totalNeed level ts ≤ balance + totalMargin ts := by
  by_cases hzero : totalMargin ts = 0
  · refine iff_of_true (fun price _ ratio hratio => ?_) (.inl hzero)
    simp only [computeMaintenanceRatio, sum_requiredMargin, hzero, ↓reduceIte] at hratio
    cases hratio
  · have hpos : 0 < totalMargin ts := lt_of_le_of_ne (totalMargin_nonneg hregular) (Ne.symm hzero)
    have hratio : ∀ price : Trade → Decimal, computeMaintenanceRatio balance (ts.map fun t => t.valued (price t)) =
        some ((balance + totalMargin ts +
          ((ts.map fun t => t.valued (price t)).map OpenPosition.unrealizedPnl).sum) / totalMargin ts) :=
    fun price => by
      simp only [computeMaintenanceRatio, sum_requiredMargin, hzero, ↓reduceIte]
    constructor
    · intro hsafe
      right
      have hstop := hsafe Trade.stopLoss (fun t ht => (hregular t ht).stop) _ (hratio Trade.stopLoss)
      have hpnl : ((ts.map fun t => t.valued t.stopLoss).map OpenPosition.unrealizedPnl).sum =
          - (ts.map Trade.stopLossAmount).sum := by
        rw [List.map_map, List.sum_neg, List.map_map]
        refine congrArg List.sum (List.map_congr_left fun t _ => ?_)
        exact t.unrealizedPnl_stop
      rw [hpnl, le_div_iff₀ hpos] at hstop
      rw [totalNeed_eq]
      linarith
    · rintro (h | h) price hwithin ratio hr
      · exact absurd h hzero
      · rw [hratio] at hr
        cases hr
        rw [totalNeed_eq] at h
        rw [le_div_iff₀ hpos]
        have hpnl := sum_unrealizedPnl hregular hwithin
        linarith

/-! ## Opens one after the other -/

/-- Each trade fits into what the trades before it left of the balance. The newest trade comes first. -/
def Stacked (level balance : Decimal) : List Trade → Prop
  | [] => True
  | t :: ts => t.need level ≤ balance - totalMargin ts ∧ Stacked level balance ts

theorem Stacked.need_le {level balance : Decimal} {t : Trade} {ts : List Trade} (h : Stacked level balance (t :: ts))
    (hts : totalNeed level ts ≤ totalMargin ts) : totalNeed level (t :: ts) ≤ balance := by
  have ht := h.1
  have hcons : totalNeed level (t :: ts) = t.need level + totalNeed level ts := rfl
  linarith

/-- A trade that was filled as it was sized. -/
theorem regular_of_sized {t : Trader} {signal : Signal} {account : TradingAccount} {tick : Decimal × Decimal}
    {trade : Trade} (hb : 0 ≤ t.positionSizer.marginBuffer)
    (hq : t.sizedQuantity signal account tick = some trade.quantity)
    (hprice : trade.entryPrice = hintPrice signal.direction tick) (hleverage : trade.leverage = account.leverage)
    (hdirection : trade.direction = signal.direction)
    (hstop : trade.stopLoss = (Trader.computeStopLevels signal trade.entryPrice).1) :
    trade.Regular ∧ trade.need t.liquidationMarginLevel ≤ account.currentBalance := by
  rw [Trader.sizedQuantity, ← hprice, ← hleverage] at hq
  have hvalued : trade.valued trade.stopLoss = signal.atStop trade.entryPrice trade.leverage trade.quantity := by
    simp only [Trade.valued, Signal.atStop, hdirection, hstop]
  obtain ⟨hmargin, -, hfits⟩ := calculateQuantity_fits hb hq
  rw [← hvalued] at hmargin hfits
  rw [trade.unrealizedPnl_stop] at hfits
  obtain ⟨-, hpos, -, hs, -, hquantity, -⟩ := PositionSizer.calculateQuantity_le hb hq
  have hneed : trade.need t.liquidationMarginLevel ≤ account.currentBalance := by
    have hbuffer : 0 ≤ t.positionSizer.marginBuffer * trade.margin := mul_nonneg hb hmargin
    have hfits : (t.liquidationMarginLevel + t.positionSizer.marginBuffer) * trade.margin ≤
      account.currentBalance + -trade.stopLossAmount := hfits
    rw [Trade.need]
    linarith
  refine ⟨⟨hmargin, hquantity.le, ?_⟩, hneed⟩
  have hwidth : 0 < trade.entryPrice * signal.stopLossPct := mul_pos hpos hs
  simp only [Trade.Within, hstop, Trader.computeStopLevels, hdirection]
  cases signal.direction <;>
  · dsimp only
    constructor <;> linarith

/-! ## Runs of opens -/

/-- Task `i` opens a trade for signal `i`. -/
def openings (t : Trader) (signals : Nat → Signal) (i : Nat) : Actor := .execute t (signals i)

/-- What each open has read to size its order. -/
def Run.basis (t : Trader) (signals : Nat → Signal) (h : Run ε) (i : Nat) : Basis :=
  h.phases (t.sizing (signals i)) (fun _ => .none) i

/-- An open that is persisted is filled in the size and at the price it was sized for, and the balance is
still the one it was sized from. -/
def FilledAsSized (t : Trader) (signals : Nat → Signal) (h : Run ε) (l : Label Calls Move)
    (_ : Config Calls (World ε) (Except Error Outcome)) : Prop :=
  match l with
  | .call i (.db (.persistOpenTrade _ trade _)) (.ok _) =>
    ∀ account ∈ (h.basis t signals i).account, ∀ tick ∈ (h.basis t signals i).tick,
      t.sizedQuantity (signals i) account tick = some trade.quantity ∧
        trade.entryPrice = hintPrice (signals i).direction tick ∧
        ∀ current ∈ h.world.db.accounts.find? t.accountId, current.currentBalance = account.currentBalance
  | _ => True

instance (t : Trader) (signals : Nat → Signal) (h : Run ε) (l : Label Calls Move)
    (c : Config Calls (World ε) (Except Error Outcome)) : Decidable (FilledAsSized t signals h l c) := by
  induction l using Lib.Label.casesOn with
  | move m => exact instDecidableTrue
  | call i q r =>
    induction q using Call.casesOn with
    | db q =>
      induction q using Query.casesOn <;> induction r using Except.casesOn <;>
        dsimp only [FilledAsSized] <;> infer_instance
    | _ => exact instDecidableTrue

/-- The trades of an account, newest first. -/
def Db.tradesOf (db : Db) (id : Uuid) : List Trade :=
  (db.trades.rows.filter fun r => r.accountId = id).map TradeRow.toTrade

/-- The account after opens that were filled as they were sized from `balance`. -/
structure Opened (t : Trader) (balance : Decimal) (db : Db) : Prop where
  account : ∃ a, db.accounts.find? t.accountId = some a ∧
    a.currentBalance = balance - totalMargin (db.tradesOf t.accountId)
  stacked : Stacked t.liquidationMarginLevel balance (db.tradesOf t.accountId)
  regular : ∀ u ∈ db.tradesOf t.accountId, u.Regular
  isOpen : ∀ u ∈ db.tradesOf t.accountId, u.status = .open ∧ u.exchange = t.exchange

theorem tradesOf_insert {db db' : Db} {trades : Lib.Table fun r : TradeRow => r.id} {trade : Trade} {id : Uuid}
    (hi : db.trades.insert ⟨trade, none⟩ = some trades) (ht : db'.trades = trades) (hid : trade.accountId = id) :
    db'.tradesOf id = trade :: db.tradesOf id := by
  simp only [Db.tradesOf, ht, Lib.Table.rows_insert hi]
  rw [List.filter_cons_of_pos (by simp [hid]), List.map_cons]

theorem Opened.open {t : Trader} {balance : Decimal} {db : Db} {now : DateTime} {trade : Trade} {db' : Db} {u : Unit}
    (h : Opened t balance db) (hw : (Query.persistOpenTrade t.accountId trade trade.margin).wrote now db u db')
    (haccount : trade.accountId = t.accountId) (hregular : trade.Regular) (hopen : trade.status = .open)
    (hexchange : trade.exchange = t.exchange)
    (hneed : ∀ a ∈ db.accounts.find? t.accountId, trade.need t.liquidationMarginLevel ≤ a.currentBalance) :
    Opened t balance db' := by
  obtain ⟨a, ha, hbalance⟩ := h.account
  obtain ⟨trades, a', ns, hi, -, ha', hdb⟩ := hw
  cases ha.symm.trans ha'
  have htrades : db'.tradesOf t.accountId = trade :: db.tradesOf t.accountId :=
    tradesOf_insert hi (by rw [hdb]) haccount
  have haccounts : db'.accounts = db.accounts.set { a with currentBalance := a.currentBalance - trade.margin } := by
    rw [hdb]
  have hset := Lib.Table.find?_set (v := { a with currentBalance := a.currentBalance - trade.margin })
    (w := a) (by rw [← Db.account_id ha] at ha; exact ha) t.accountId
  rw [← haccounts, if_pos (Db.account_id ha).symm] at hset
  refine ⟨⟨_, hset, ?_⟩, ?_, ?_, ?_⟩ <;> rw [htrades]
  · show a.currentBalance - trade.margin = balance - (trade.margin + totalMargin _)
    rw [hbalance]
    ring
  · refine ⟨?_, h.stacked⟩
    rw [← hbalance]
    exact hneed a ha
  · exact List.forall_mem_cons.mpr ⟨hregular, h.regular⟩
  · exact List.forall_mem_cons.mpr ⟨⟨hopen, hexchange⟩, h.isOpen⟩

theorem Opened.leverage {t : Trader} {balance : Decimal} {db : Db} (h : Opened t balance db) (id : Uuid)
    (leverage : Decimal) : Opened t balance (setLeverage id leverage db) := by
  have htrades : (setLeverage id leverage db).tradesOf t.accountId = db.tradesOf t.accountId := by
    simp only [Db.tradesOf, setLeverage_trades]
  refine ⟨?_, by rw [htrades]; exact h.stacked, by rw [htrades]; exact h.regular, by rw [htrades]; exact h.isOpen⟩
  obtain ⟨a, ha, hbalance⟩ := h.account
  rw [htrades]
  simp only [setLeverage]
  split
  · rename_i b hb
    have hset := Lib.Table.find?_set (v := { b with leverage }) (w := b)
      (by rw [← Db.account_id hb] at hb; exact hb) t.accountId
    by_cases hid : t.accountId = b.id
    · rw [if_pos hid] at hset
      refine ⟨_, hset, ?_⟩
      rw [hid, Db.account_id hb, hb] at ha
      rw [← hbalance, Option.some.inj ha]
    · rw [if_neg hid] at hset
      exact ⟨a, hset.trans ha, hbalance⟩
  · exact ⟨a, ha, hbalance⟩

namespace Run

variable {t : Trader} {signals : Nat → Signal}

theorem Of.sizing {h : Run ε} (hv : h.Of E w₀ (openings t signals)) {i : Nat} {q : Query} {r : Except Error q.Ok}
    {c : Config Calls (World ε) (Except Error Outcome)} (hs : Step (worldSys E) h.last (.call i (.db q) r) c) :
    (t.sizing (signals i)).allowed (h.basis t signals i) (.db q) :=
  History.Valid.allowed (t.meets_sizing (signals i)) hv hs

/-- The account in a run of opens from an account without trades. -/
theorem Of.opened {account : TradingAccount} (hb : 0 ≤ t.positionSizer.marginBuffer)
    (ha : w₀.db.accounts.find? t.accountId = some account)
    (htrades : ∀ r ∈ w₀.db.trades.rows, r.accountId ≠ t.accountId)
    {h : Run ε} (hv : h.Of E w₀ (openings t signals)) (hs : h.Steps (FilledAsSized t signals)) :
    Opened t account.currentBalance h.world.db := by
  refine History.Valid.invariant (J := fun h : Run ε => Opened t account.currentBalance h.world.db) ?_
    (fun (h : Run ε) l c hv _ ih hs hfilled => ?_) hv hs
  · have hnone : w₀.db.tradesOf t.accountId = [] := by
      simp only [Db.tradesOf, List.map_eq_nil_iff, List.filter_eq_nil_iff, decide_eq_true_eq]
      exact htrades
    show Opened t account.currentBalance w₀.db
    refine ⟨⟨account, ha, ?_⟩, ?_, ?_, ?_⟩ <;> rw [hnone]
    · exact (sub_zero _).symm
    · trivial
    · exact List.forall_mem_nil _
    · exact List.forall_mem_nil _
  · rcases Of.step_cases hv hs with ⟨i, q, a, rfl, hq, hw, -⟩ | ⟨i, q, e, rfl, -, hw⟩ | ⟨j, k, rfl, hw⟩ | ⟨hw, -⟩
    · have hsizing := Of.sizing hv hs
      generalize hst : h.stage (openings t signals) i = st at hq
      cases hq with
      | account =>
        have hw : c.world.db = h.world.db := hw
        rw [History.world_step, hw]
        exact ih
      | openTrade haccount _ _ hopen _ =>
        obtain ⟨⟨basis, tick, quantity, hbasis, htick, -, hleverage, hdirection, hexchange, -, hstop⟩, -⟩ := hsizing
        obtain ⟨hsized, hprice, hcurrent⟩ := hfilled basis hbasis tick htick
        obtain ⟨hregular, hneed⟩ := regular_of_sized hb hsized hprice hleverage hdirection hstop
        refine ih.open hw haccount hregular hopen hexchange fun current hc => ?_
        rw [hcurrent current hc]
        exact hneed
    · rw [History.world_step, hw]
      exact ih
    · rw [History.world_step, hw]
      exact ih.leverage j k
    · rw [History.world_step, hw]
      exact ih

end Run

/-! ## Detection -/

/-- A detection at prices between the entries and the stops does not select the account. -/
def NeverSelected (t : Trader) (db : Db) : Prop :=
  ∀ (ctx : LiquidationContext) (m : Snapshot) (now : DateTime) (openTrades : List OpenTradeWithAccount),
    ctx.exchangeLiquidationLevels t.exchange = some t.liquidationMarginLevel → m.db = db →
      listOpenWithAccountName.run now db = .ok (openTrades, db) →
      (∀ u ∈ db.tradesOf t.accountId, u.Within (m.closePrice u)) →
      Meets m.observing True (detectLiquidationTargets ctx openTrades t.exchange) fun q targets => q →
        ∀ target ∈ targets, target.1 ≠ t.accountId

/-- The bucket of an account whose trades are all open on one exchange. -/
theorem bucket_perm {db : Db} {id : Uuid} {exchange : Exchange} {openTrades : List OpenTradeWithAccount}
    (hrows : (openTrades.map OpenTradeWithAccount.trade).Perm
      ((db.trades.rows.filter fun r => r.status = .open).map TradeRow.toTrade))
    (h : ∀ u ∈ db.tradesOf id, u.status = .open ∧ u.exchange = exchange) :
    ((openTrades.filter fun owned => owned.trade.exchange = exchange ∧ owned.trade.accountId = id).map
      OpenTradeWithAccount.trade).Perm (db.tradesOf id) := by
  refine (owned_perm id exchange hrows).trans (List.Perm.of_eq (congrArg _ (List.filter_congr fun r hr => ?_)))
  by_cases hid : r.accountId = id
  · have hu : r.toTrade ∈ db.tradesOf id :=
      List.mem_map.mpr ⟨r, List.mem_filter.mpr ⟨hr, decide_eq_true hid⟩, rfl⟩
    simp [hid, h _ hu]
  · simp [hid]

theorem SafeAtStops.neverSelected {t : Trader} {balance : Decimal} {db : Db} {account : TradingAccount}
    (hopened : Opened t balance db) (ha : db.accounts.find? t.accountId = some account)
    (hsafe : SafeAtStops t.liquidationMarginLevel account.currentBalance (db.tradesOf t.accountId)) :
    NeverSelected t db := by
  intro ctx m now openTrades hlevel hm hlist hwithin
  refine (m.detectLiquidationTargets_below ctx openTrades t.exchange).mono fun q targets htargets hq target ht hid => ?_
  obtain ⟨threshold, hthreshold, account', positions, ratio, ha', hpositions, hratio, hlt⟩ := htargets hq target ht
  obtain rfl := Option.some.inj (hlevel.symm.trans hthreshold)
  rw [hid] at ha' hpositions
  rw [hm, ha] at ha'
  obtain rfl := Option.some.inj ha'
  obtain ⟨-, hrows, -⟩ := listOpenWithAccountName_ok hlist
  have hperm := bucket_perm hrows hopened.isOpen
  rw [Snapshot.mapM_closeSide hpositions, computeMaintenanceRatio_perm (hperm.map fun u => u.valued (m.closePrice u))]
    at hratio
  exact absurd hlt (not_lt.mpr (hsafe m.closePrice hwithin ratio hratio))

/-- In a run of opens that are filled as they were sized, from an account without trades: the account is above
its liquidation level up to the stops iff what its trades need at that level fits into the balance it started
with. This is so if the trades before the newest one need no more than their margins, and then a detection
does not select the account. -/
theorem safe_at_stops {t : Trader} {signals : Nat → Signal} {account : TradingAccount}
    (hb : 0 ≤ t.positionSizer.marginBuffer) (ha : w₀.db.accounts.find? t.accountId = some account)
    (htrades : ∀ r ∈ w₀.db.trades.rows, r.accountId ≠ t.accountId) {h : Run ε} (hv : h.Of E w₀ (openings t signals))
    (hs : h.Steps (FilledAsSized t signals)) :
    let ts := h.world.db.tradesOf t.accountId
    ∃ current, h.world.db.accounts.find? t.accountId = some current ∧
      (SafeAtStops t.liquidationMarginLevel current.currentBalance ts ↔
        totalMargin ts = 0 ∨ totalNeed t.liquidationMarginLevel ts ≤ account.currentBalance) ∧
      (totalNeed t.liquidationMarginLevel ts.tail ≤ totalMargin ts.tail →
        SafeAtStops t.liquidationMarginLevel current.currentBalance ts) ∧
      (SafeAtStops t.liquidationMarginLevel current.currentBalance ts → NeverSelected t h.world.db) := by
  intro ts
  have hopened := Run.Of.opened hb ha htrades hv hs
  obtain ⟨current, hcurrent, hbalance⟩ := hopened.account
  have hiff : SafeAtStops t.liquidationMarginLevel current.currentBalance ts ↔
      totalMargin ts = 0 ∨ totalNeed t.liquidationMarginLevel ts ≤ account.currentBalance := by
    have hsum : current.currentBalance + totalMargin ts = account.currentBalance := by
      rw [hbalance]
      exact sub_add_cancel _ _
    rw [safeAtStops_iff hopened.regular, hsum]
  refine ⟨current, hcurrent, hiff, fun htail => hiff.mpr ?_, fun hsafe => hsafe.neverSelected hopened hcurrent⟩
  have hstacked : Stacked t.liquidationMarginLevel account.currentBalance ts := hopened.stacked
  cases hts : ts with
  | nil => exact .inl rfl
  | cons u us =>
    rw [hts] at hstacked htail
    exact .inr (hstacked.need_le htail)

/-! ## Two positions -/

/-- A trader without a margin buffer. -/
def sampleSizing : Trader where
  exchange := .gmoFx
  accountId := 1
  requiresClosePositionId := true
  positionSizer := ⟨fun _ => none, 0, fun _ => none⟩
  liquidationMarginLevel := 1
  dryRun := true

/-- A paper account with leverage 2. -/
def sampleSizingDb : Db where
  trades := .empty
  accounts := ⟨[{ sampleAccount with live := false, exchange := .gmoFx, leverage := 2 }], by decide⟩
  accountEvents := []
  notifications := []

/-- Stops at half the price. -/
def sampleSizingSignals (i : Nat) : Signal where
  strategyName := "donchian"
  pair := if i = 0 then "USD_JPY" else "EUR_JPY"
  direction := .long
  stopLossPct := 1 / 2
  takeProfitPct := none
  allocationPct := 1
  maxHoldUntil := none

/-- The cues of a dry-run open at the price 100. -/
def sampleOpenCues (i : Nat) (id : Uuid) : List (Cue Unit) :=
  [.commit i, .price i 99 100, .clock i, .price i 99 100, .clock i, .uuid i id, .commit i]

/-- A trader with a level of one half. -/
def sampleTightSizing : Trader := { sampleSizing with liquidationMarginLevel := 1 / 2 }

/-- Stops at a tenth of the price, each for half of the balance: a trade needs less than its margin. -/
def sampleTightSignals (i : Nat) : Signal :=
  { sampleSizingSignals i with stopLossPct := 1 / 10, allocationPct := 1 / 2 }

/-- Two opens that leave each other room. -/
def sampleTightOpens : Run Unit :=
  .play anyExchange ⟨sampleSizingDb, (), 0⟩ (openings sampleTightSizing sampleTightSignals)
    (sampleOpenCues 0 7 ++ sampleOpenCues 1 8)

/-- Two positions with tight stops are safe. -/
theorem sampleTightOpens_safe : ∃ current, sampleTightOpens.world.db.accounts.find? 1 = some current ∧
    (sampleTightOpens.world.db.tradesOf 1).length = 2 ∧
      SafeAtStops (1 / 2) current.currentBalance (sampleTightOpens.world.db.tradesOf 1) := by
  obtain ⟨current, hcurrent, -, hsafe, -⟩ := @safe_at_stops _ anyExchange
    ⟨sampleSizingDb, (), 0⟩ sampleTightSizing sampleTightSignals _ (by decide +kernel) rfl (by decide) _
    (Run.play_of _ _ _ (sampleOpenCues 0 7 ++ sampleOpenCues 1 8)) (by decide +kernel)
  exact ⟨current, hcurrent, by decide +kernel, hsafe (by decide +kernel)⟩

/-- Two opens that do not. -/
def sampleTwoOpens : Run Unit :=
  .play anyExchange ⟨sampleSizingDb, (), 0⟩ (openings sampleSizing sampleSizingSignals)
    (sampleOpenCues 0 7 ++ sampleOpenCues 1 8)

/-- The ticks at which both trades are at their stops. -/
def sampleStopTicks : Snapshot where
  db := sampleTwoOpens.world.db
  tick _ _ := some (50, 51)

/-- The liquidation level of the sample. -/
def sampleLevels : LiquidationContext where
  exchangeLiquidationLevels _ := some 1
  liveForcesDryRun := false

/-- Both opens are sized from what is left and filled as they were sized, and at their stops the account is
at a third of its margins and selected. -/
theorem sampleTwoOpens_liquidated :
    sampleTwoOpens.Of anyExchange ⟨sampleSizingDb, (), 0⟩ (openings sampleSizing sampleSizingSignals) ∧
      sampleTwoOpens.Steps (FilledAsSized sampleSizing sampleSizingSignals) ∧
      (∀ u ∈ sampleTwoOpens.world.db.tradesOf 1, u.Within (sampleStopTicks.closePrice u)) ∧
      ((sampleTwoOpens.world.db.accounts.find? 1).bind fun current =>
        computeMaintenanceRatio current.currentBalance ((sampleTwoOpens.world.db.tradesOf 1).map fun u =>
          u.valued (sampleStopTicks.closePrice u))) = some (1 / 3) ∧
      ¬ NeverSelected sampleSizing sampleTwoOpens.world.db := by
  refine ⟨Run.play_of _ _ _ _, by decide +kernel, by decide +kernel, by decide +kernel, fun hnever => ?_⟩
  obtain ⟨q, hq, htargets⟩ := Snapshot.eval_observing
    (hnever sampleLevels sampleStopTicks 0 _ rfl rfl rfl (by decide +kernel))
  rw [List.mergeSort_of_pairwise (by decide +kernel)] at htargets
  exact htargets hq (1, [8, 7]) (by decide +kernel) rfl

end AutoTrader
