import AutoTrader.App.StopMargin

/-!
# The closing trades of an account

While a trade is closing, its margin is still deducted from the balance of its account, and a detection no
longer sees it. So a detection decides on the open trades as if the margin and the profit of the closing
trades were lost. This is right for an account iff they do not carry it across the liquidation level
(`judged_as_whole_iff`).
-/

namespace AutoTrader

open Lib (Prog)

/-! ## Trades that are judged -/

/-- The trades of an account whose margins are deducted from its balance. -/
def Db.unsettled (db : Db) (id : Uuid) : List Trade := (db.tradesOf id).filter fun u => u.status ≠ .closed

/-- A detection for the exchange sees the trade. -/
def Trade.judgedOn (exchange : Exchange) (u : Trade) : Bool := u.status = .open ∧ u.exchange = exchange

/-- The unsettled trades of an account that the check judges. -/
def Db.judged (db : Db) (exchange : Exchange) (id : Uuid) : List Trade :=
  (db.unsettled id).filter (Trade.judgedOn exchange)

/-- The unsettled trades that a detection does not see: those that are closing. -/
def Db.unjudged (db : Db) (exchange : Exchange) (id : Uuid) : List Trade :=
  (db.unsettled id).filter fun u => !u.judgedOn exchange

theorem judged_append_unjudged (db : Db) (exchange : Exchange) (id : Uuid) :
    (db.judged exchange id ++ db.unjudged exchange id).Perm (db.unsettled id) :=
  List.filter_append_perm _ _

/-- The open trades of an account on the exchange are those that are judged. -/
theorem judged_perm {db : Db} (id : Uuid) (exchange : Exchange) {openTrades : List OpenTradeWithAccount}
    (hrows : (openTrades.map OpenTradeWithAccount.trade).Perm
      ((db.trades.rows.filter fun r => r.status = .open).map TradeRow.toTrade)) :
    ((openTrades.filter fun owned => owned.trade.exchange = exchange ∧ owned.trade.accountId = id).map
      OpenTradeWithAccount.trade).Perm (db.judged exchange id) := by
  refine (owned_perm id exchange hrows).trans (List.Perm.of_eq ?_)
  simp only [Db.judged, Db.unsettled, Db.tradesOf, List.filter_map, List.filter_filter]
  refine congrArg _ (List.filter_congr fun r _ => ?_)
  by_cases hid : r.accountId = id <;> by_cases hopen : r.status = .open <;>
    simp [hid, hopen, Trade.judgedOn]

/-! ## What a detection selects -/

namespace Snapshot

variable {m : Snapshot}

theorem eval_liquidationRatioForAccount (accountId : Uuid) (bucket : List OpenTradeWithAccount) {cache : PriceCache}
    (hc : m.Cached cache) :
    let r := (liquidationRatioForAccount accountId bucket cache).eval m.answer
    m.Cached r.2 ∧ r.1 = (m.db.accounts.find? accountId).bind fun account =>
      ((bucket.map OpenTradeWithAccount.trade).mapM m.closeSide).bind
        (computeMaintenanceRatio account.currentBalance) := by
  obtain ⟨q, hq, hbuild⟩ := eval_observing (buildCloseSidePositions_observing (m := m) (p := True)
    (bucket.map OpenTradeWithAccount.trade) cache fun _ => hc)
  obtain ⟨hpositions, hcached⟩ := hbuild hq
  have hread : ((query (.getAccount accountId)).run.eval m.answer : Except Error (Option TradingAccount)) =
      .ok (m.db.accounts.find? accountId) := rfl
  simp only [liquidationRatioForAccount, Prog.eval_bind, hread]
  cases m.db.accounts.find? accountId with
  | none => exact ⟨hc, rfl⟩
  | some account =>
    simp only [Prog.eval_bind, ← hpositions]
    exact ⟨hcached, rfl⟩

theorem below_iff {threshold : Decimal} {accountId : Uuid} {bucket : List OpenTradeWithAccount} :
    m.Below threshold accountId bucket ↔ ∃ ratio, ((m.db.accounts.find? accountId).bind fun account =>
      ((bucket.map OpenTradeWithAccount.trade).mapM m.closeSide).bind
        (computeMaintenanceRatio account.currentBalance)) = some ratio ∧ ratio < threshold := by
  simp only [Below, Option.bind_eq_some_iff]
  constructor
  · rintro ⟨account, positions, ratio, ha, hp, hr, hlt⟩
    exact ⟨ratio, ⟨account, ha, positions, hp, hr⟩, hlt⟩
  · rintro ⟨ratio, ⟨account, ha, positions, hp, hr⟩, hlt⟩
    exact ⟨account, positions, ratio, ha, hp, hr, hlt⟩

theorem mem_detectInBuckets (ctx : LiquidationContext) (threshold : Decimal) (id : Uuid) :
    ∀ (buckets : Buckets) {cache : PriceCache}, m.Cached cache →
      (id ∈ ((detectInBuckets ctx threshold buckets cache).eval m.answer).map Prod.fst ↔
        ∃ bucket, (id, bucket) ∈ buckets ∧ isDryRunBucket bucket ctx.liveForcesDryRun ∧ m.Below threshold id bucket)
  | [], _, _ => by simp [detectInBuckets]
  | (accountId, bucket) :: buckets, cache, hc => by
    obtain ⟨hcached, hratio⟩ := eval_liquidationRatioForAccount accountId bucket hc
    have ih := fun {cache : PriceCache} (hc : m.Cached cache) => mem_detectInBuckets ctx threshold id buckets hc
    have hcons : (∃ b, (id, b) ∈ (accountId, bucket) :: buckets ∧ isDryRunBucket b ctx.liveForcesDryRun ∧
        m.Below threshold id b) ↔
        (id = accountId ∧ isDryRunBucket bucket ctx.liveForcesDryRun ∧ m.Below threshold accountId bucket) ∨
          ∃ b, (id, b) ∈ buckets ∧ isDryRunBucket b ctx.liveForcesDryRun ∧ m.Below threshold id b := by
      constructor
      · rintro ⟨b, hb, hdry, hbelow⟩
        rcases List.mem_cons.mp hb with heq | hb
        · obtain ⟨rfl, rfl⟩ := Prod.mk.inj heq
          exact .inl ⟨rfl, hdry, hbelow⟩
        · exact .inr ⟨b, hb, hdry, hbelow⟩
      · rintro (⟨rfl, hdry, hbelow⟩ | ⟨b, hb, h⟩)
        · exact ⟨bucket, List.mem_cons_self, hdry, hbelow⟩
        · exact ⟨b, List.mem_cons_of_mem _ hb, h⟩
    rw [hcons]
    simp only [detectInBuckets]
    by_cases hdry : isDryRunBucket bucket ctx.liveForcesDryRun
    · simp only [hdry, Bool.not_true, Bool.false_eq_true, ↓reduceIte, Prog.eval_bind, true_and]
      rw [below_iff, ← hratio]
      split
      · rename_i hnone
        simp only [hnone, reduceCtorEq, false_and, exists_false, and_false, false_or]
        exact ih hcached
      · rename_i ratio hsome
        simp only [hsome, Option.some.injEq, exists_eq_left', isBelowLiquidationThreshold, decide_eq_true_eq]
        by_cases hlt : ratio < threshold
        · simp only [hlt, ↓reduceIte, and_true]
          exact List.mem_cons.trans (or_congr_right (ih hcached))
        · simp only [hlt, ↓reduceIte, and_false, false_or]
          exact ih hcached
    · simp only [hdry, Bool.not_false, ↓reduceIte, Bool.false_eq_true, false_and, and_false, false_or]
      exact ih hc

/-- A detection selects the account. -/
def Selects (m : Snapshot) (ctx : LiquidationContext) (openTrades : List OpenTradeWithAccount) (exchange : Exchange)
    (id : Uuid) : Prop :=
  id ∈ ((detectLiquidationTargets ctx openTrades exchange).eval m.answer).map Prod.fst

theorem selects_iff {ctx : LiquidationContext} {openTrades : List OpenTradeWithAccount} {exchange : Exchange}
    {id : Uuid} {level : Decimal} (hlevel : ctx.exchangeLiquidationLevels exchange = some level) :
    m.Selects ctx openTrades exchange id ↔ ∃ bucket,
      bucket = openTrades.filter (fun owned => owned.trade.exchange = exchange ∧ owned.trade.accountId = id) ∧
        bucket ≠ [] ∧ isDryRunBucket bucket ctx.liveForcesDryRun ∧ m.Below level id bucket := by
  have hempty : m.Cached [] := by
    intro e s b hb
    cases hb
  simp only [Selects, detectLiquidationTargets, hlevel]
  rw [mem_detectInBuckets ctx level id _ hempty]
  refine exists_congr fun bucket => ?_
  rw [groupOpenTradesByAccount, Lib.mem_groupBy_iff, List.filter_filter, and_assoc]
  simp only [Bool.decide_and, Bool.and_comm]

/-! ## The measure of an account -/

/-- The maintenance ratio over the trades, at the prices at which they can be closed, is below the level. -/
def MeasuredBelow (m : Snapshot) (level balance : Decimal) (ts : List Trade) : Prop :=
  ∃ ratio, computeMaintenanceRatio balance (ts.map fun t => t.valued (m.closePrice t)) = some ratio ∧ ratio < level

/-- The margins of the trades and their profits, without what the level asks for. -/
def surplus (m : Snapshot) (level : Decimal) (ts : List Trade) : Decimal :=
  (ts.map fun t => t.margin + (t.valued (m.closePrice t)).unrealizedPnl - level * t.margin).sum

theorem surplus_append (m : Snapshot) (level : Decimal) (ts us : List Trade) :
    m.surplus level (ts ++ us) = m.surplus level ts + m.surplus level us := by
  simp only [surplus, List.map_append, List.sum_append]

theorem surplus_eq (m : Snapshot) (level : Decimal) (ts : List Trade) :
    m.surplus level ts = totalMargin ts +
      ((ts.map fun t => t.valued (m.closePrice t)).map OpenPosition.unrealizedPnl).sum - level * totalMargin ts := by
  induction ts with
  | nil => simp [surplus, totalMargin]
  | cons t ts ih =>
    simp only [surplus, totalMargin, List.map_cons, List.sum_cons] at ih ⊢
    rw [ih]
    ring

theorem measuredBelow_perm {level balance : Decimal} {ts us : List Trade} (h : ts.Perm us) :
    m.MeasuredBelow level balance ts ↔ m.MeasuredBelow level balance us := by
  simp only [MeasuredBelow, computeMaintenanceRatio_perm (h.map fun t => t.valued (m.closePrice t))]

/-- Trades with a margin are below the level iff the balance does not make up for their surplus. -/
theorem measuredBelow_iff {level balance : Decimal} {ts : List Trade} (h : 0 ≤ totalMargin ts) :
    m.MeasuredBelow level balance ts ↔ totalMargin ts ≠ 0 ∧ balance + m.surplus level ts < 0 := by
  simp only [MeasuredBelow, computeMaintenanceRatio, sum_requiredMargin]
  by_cases hzero : totalMargin ts = 0
  · simp [hzero]
  · have hpos : 0 < totalMargin ts := lt_of_le_of_ne h (Ne.symm hzero)
    simp only [hzero, ↓reduceIte, Option.some.injEq, exists_eq_left', ne_eq, not_false_eq_true, true_and]
    rw [div_lt_iff₀ hpos, surplus_eq]
    constructor <;> intro hlt <;> linarith

/-- The trades `rest` do not carry the account across the level: without them it is on the same side. -/
def SameSide (m : Snapshot) (level balance : Decimal) (judged rest : List Trade) : Prop :=
  if totalMargin judged = 0 then totalMargin rest = 0 ∨ 0 ≤ balance + m.surplus level judged + m.surplus level rest
  else balance + m.surplus level judged < 0 ↔ balance + m.surplus level judged + m.surplus level rest < 0

theorem sameSide_nil (m : Snapshot) (level balance : Decimal) (judged : List Trade) :
    m.SameSide level balance judged [] := by
  unfold SameSide
  split
  · exact .inl rfl
  · simp [surplus]

theorem sameSide_iff {level balance : Decimal} {judged rest : List Trade} (hj : 0 ≤ totalMargin judged)
    (hr : 0 ≤ totalMargin rest) : m.SameSide level balance judged rest ↔
      (m.MeasuredBelow level balance judged ↔ m.MeasuredBelow level balance (judged ++ rest)) := by
  have happend : totalMargin (judged ++ rest) = totalMargin judged + totalMargin rest := by
    simp only [totalMargin, List.map_append, List.sum_append]
  rw [measuredBelow_iff hj, measuredBelow_iff (happend ▸ add_nonneg hj hr), happend, surplus_append, ← add_assoc]
  unfold SameSide
  split
  · rename_i hzero
    simp only [hzero, zero_add, ne_eq, not_true_eq_false, false_and, false_iff, not_and, not_lt]
    exact Decidable.or_iff_not_imp_left
  · rename_i hzero
    have hne : totalMargin judged + totalMargin rest ≠ 0 :=
      (add_pos_of_pos_of_nonneg (lt_of_le_of_ne hj (Ne.symm hzero)) hr).ne'
    simp only [ne_eq, hzero, hne, not_false_eq_true, true_and]

end Snapshot

/-! ## Detection and measure -/

namespace Snapshot

variable {m : Snapshot}

theorem mapM_closeSide_of_known (ts : List Trade) (h : ∀ u ∈ ts, (m.tick u.exchange u.pair).isSome) :
    ts.mapM m.closeSide = some (ts.map fun u => u.valued (m.closePrice u)) := by
  induction ts with
  | nil => rfl
  | cons u ts ih =>
    obtain ⟨⟨bid, ask⟩, htick⟩ := Option.isSome_iff_exists.mp (h u List.mem_cons_self)
    have hprice : m.closePrice u = (closeSidePosition u bid ask).currentPrice := by
      simp only [closePrice, htick]
    simp only [List.mapM_cons, ih fun v hv => h v (List.mem_cons_of_mem _ hv), closeSide, htick, List.map_cons, hprice]
    rfl

theorem below_iff_measured {level : Decimal} {id : Uuid} {account : TradingAccount}
    {bucket : List OpenTradeWithAccount} (ha : m.db.accounts.find? id = some account)
    (h : ∀ owned ∈ bucket, (m.tick owned.trade.exchange owned.trade.pair).isSome) :
    m.Below level id bucket ↔
      m.MeasuredBelow level account.currentBalance (bucket.map OpenTradeWithAccount.trade) := by
  have hpositions := mapM_closeSide_of_known (m := m) (bucket.map OpenTradeWithAccount.trade)
    (List.forall_mem_map.mpr h)
  rw [below_iff, ha, hpositions]
  rfl

end Snapshot

theorem isDryRunBucket_of_owned {bucket : List OpenTradeWithAccount} {db : Db} {id : Uuid} {account : TradingAccount}
    {liveForcesDryRun : Bool} (ha : db.accounts.find? id = some account) (hne : bucket ≠ [])
    (h : ∀ owned ∈ bucket, owned.trade.accountId = id ∧
      owned.live = (db.accounts.find? owned.trade.accountId).map TradingAccount.live) :
    isDryRunBucket bucket liveForcesDryRun = effectiveDryRun account.live liveForcesDryRun := by
  obtain ⟨owned, rest, rfl⟩ := List.exists_cons_of_ne_nil hne
  obtain ⟨hid, hlive⟩ := h owned List.mem_cons_self
  simp [isDryRunBucket, hlive, hid, ha]

theorem totalMargin_nonneg_of {ts : List Trade} (h : ∀ t ∈ ts, 0 ≤ t.margin) : 0 ≤ totalMargin ts := by
  refine List.sum_nonneg fun m hm => ?_
  obtain ⟨t, ht, rfl⟩ := List.mem_map.mp hm
  exact h t ht

/-- A detection selects a dry-run account iff the open trades alone are below the level. -/
theorem selects_iff_judged {m : Snapshot} {ctx : LiquidationContext} {exchange : Exchange} {level : Decimal}
    {id : Uuid} {account : TradingAccount} {now : DateTime} {openTrades : List OpenTradeWithAccount}
    (hlevel : ctx.exchangeLiquidationLevels exchange = some level) (ha : m.db.accounts.find? id = some account)
    (hdry : effectiveDryRun account.live ctx.liveForcesDryRun)
    (hlist : listOpenWithAccountName.run now m.db = .ok (openTrades, m.db))
    (hprice : ∀ u ∈ m.db.judged exchange id, (m.tick u.exchange u.pair).isSome) :
    m.Selects ctx openTrades exchange id ↔
      m.MeasuredBelow level account.currentBalance (m.db.judged exchange id) := by
  obtain ⟨-, hrows, hlive⟩ := listOpenWithAccountName_ok hlist
  have hperm := judged_perm id exchange hrows
  rw [Snapshot.selects_iff hlevel, ← Snapshot.measuredBelow_perm hperm]
  set bucket := openTrades.filter fun owned => owned.trade.exchange = exchange ∧ owned.trade.accountId = id with hbucket
  have hknown : ∀ owned ∈ bucket, (m.tick owned.trade.exchange owned.trade.pair).isSome := fun owned ho =>
    hprice _ (hperm.mem_iff.mp (List.mem_map_of_mem ho))
  rw [exists_eq_left, Snapshot.below_iff_measured ha hknown]
  refine ⟨fun ⟨_, _, h⟩ => h, fun h => ?_⟩
  have hne : bucket ≠ [] := by
    intro hnil
    obtain ⟨ratio, hratio, -⟩ := h
    rw [hnil] at hratio
    cases hratio
  refine ⟨hne, ?_, h⟩
  rw [isDryRunBucket_of_owned ha hne fun owned ho => ?_]
  · exact hdry
  · have ho := List.mem_filter.mp ho
    exact ⟨(of_decide_eq_true ho.2).2, hlive owned ho.1⟩

/-- For a dry-run account whose unsettled trades have known prices, a detection agrees with the measure over
all of its unsettled trades iff those that are not open do not carry the account across the level. Without
a closing trade it always agrees. -/
theorem judged_as_whole_iff {m : Snapshot} {ctx : LiquidationContext} {exchange : Exchange} {level : Decimal}
    {id : Uuid} {account : TradingAccount} {now : DateTime} {openTrades : List OpenTradeWithAccount}
    (hlevel : ctx.exchangeLiquidationLevels exchange = some level) (ha : m.db.accounts.find? id = some account)
    (hdry : effectiveDryRun account.live ctx.liveForcesDryRun)
    (hlist : listOpenWithAccountName.run now m.db = .ok (openTrades, m.db))
    (hprice : ∀ u ∈ m.db.unsettled id, (m.tick u.exchange u.pair).isSome)
    (hmargin : ∀ u ∈ m.db.unsettled id, 0 ≤ u.margin) :
    let agrees := (m.Selects ctx openTrades exchange id ↔
      m.MeasuredBelow level account.currentBalance (m.db.unsettled id))
    (agrees ↔ m.SameSide level account.currentBalance (m.db.judged exchange id) (m.db.unjudged exchange id)) ∧
      (m.db.unjudged exchange id = [] → agrees) := by
  intro agrees
  have hjudged : ∀ u ∈ m.db.judged exchange id, u ∈ m.db.unsettled id := fun u hu => List.mem_of_mem_filter hu
  have hrest : ∀ u ∈ m.db.unjudged exchange id, u ∈ m.db.unsettled id := fun u hu => List.mem_of_mem_filter hu
  have hiff : agrees ↔
      m.SameSide level account.currentBalance (m.db.judged exchange id) (m.db.unjudged exchange id) := by
    rw [Snapshot.sameSide_iff (totalMargin_nonneg_of fun u hu => hmargin u (hjudged u hu))
      (totalMargin_nonneg_of fun u hu => hmargin u (hrest u hu)),
      Snapshot.measuredBelow_perm (judged_append_unjudged m.db exchange id),
      ← selects_iff_judged hlevel ha hdry hlist fun u hu => hprice u (hjudged u hu)]
  refine ⟨hiff, fun hnil => hiff.mpr ?_⟩
  rw [hnil]
  exact m.sameSide_nil _ _ _

/-! ## A close in progress -/

/-- A trade with a margin of 100. -/
def sampleMarginTrade (id : Uuid) (pair : Pair) (status : TradeStatus) : TradeRow :=
  { sampleTrade with id, pair, exchange := .gmoFx, leverage := 2, status, exchangePositionId := none }

/-- A paper account whose balance went into the margins of two trades. -/
def sampleMarginDb (status : TradeStatus) : Db where
  trades := ⟨[sampleMarginTrade 7 "USD_JPY" .open, sampleMarginTrade 8 "EUR_JPY" status], by
    cases status <;> decide⟩
  accounts := ⟨[{ sampleAccount with
    live := false, exchange := .gmoFx, initialBalance := 200, currentBalance := 0 }], by
    decide⟩
  accountEvents := []
  notifications := []

/-- The first trade has lost 60. -/
def sampleMarginTicks (status : TradeStatus) : Snapshot where
  db := sampleMarginDb status
  tick _ pair := if pair = "USD_JPY" then some (70, 71) else some (100, 101)

/-- A level of one half. -/
def sampleHalfLevel : LiquidationContext where
  exchangeLiquidationLevels _ := some (1 / 2)
  liveForcesDryRun := false

/-- A trade of a live account. -/
def sampleOwned (r : TradeRow) : OpenTradeWithAccount := ⟨r.toTrade, some false⟩

instance (m : Snapshot) (ctx : LiquidationContext) (openTrades : List OpenTradeWithAccount) (exchange : Exchange)
    (id : Uuid) : Decidable (m.Selects ctx openTrades exchange id) :=
  inferInstanceAs (Decidable (_ ∈ _))

/-- A level of four fifths. -/
def sampleHighLevel : LiquidationContext := { sampleHalfLevel with exchangeLiquidationLevels _ := some (4 / 5) }

instance (m : Snapshot) (level balance : Decimal) (judged rest : List Trade) :
    Decidable (m.SameSide level balance judged rest) := by
  unfold Snapshot.SameSide
  infer_instance

/-- The first trade is judged alone, while the second one is closing. -/
theorem sampleMargin_listed : listOpenWithAccountName.run 0 (sampleMarginDb .closing) =
    .ok ([sampleOwned (sampleMarginTrade 7 "USD_JPY" .open)], sampleMarginDb .closing) := by
  simp only [listOpenWithAccountName, Tx.ok_bind, Tx.run_get, Tx.run_pure]
  refine ⟨_, _, ⟨rfl, rfl⟩, ?_, rfl⟩
  rw [List.mergeSort_of_pairwise (by decide +kernel)]
  decide +kernel

/-- The ratio of the open trade alone, 2 / 5, and that of the account, 7 / 10, are both below 4 / 5: the trade that
is closing does not carry the account across the level. -/
theorem sampleMargin_agrees : let m := sampleMarginTicks .closing
    m.Selects sampleHighLevel [sampleOwned (sampleMarginTrade 7 "USD_JPY" .open)] .gmoFx 1 ↔
      m.MeasuredBelow (4 / 5) 0 (m.db.unsettled 1) := by
  refine (@judged_as_whole_iff (sampleMarginTicks .closing) sampleHighLevel .gmoFx _ 1 _ 0 _ rfl rfl rfl
    sampleMargin_listed (by decide +kernel) (by decide +kernel)).1.mpr ?_
  decide +kernel

/-- While the second trade is closing, the ratio of the account is still 7 / 10, and the detection selects it. -/
theorem sampleMargin_selected :
    let before := sampleMarginTicks .open
    let m := sampleMarginTicks .closing
    (∀ u ∈ m.db.unsettled 1, (m.tick u.exchange u.pair).isSome) ∧ (∀ u ∈ m.db.unsettled 1, 0 ≤ u.margin) ∧
      ¬ before.MeasuredBelow (1 / 2) 0 (before.db.unsettled 1) ∧ ¬ m.MeasuredBelow (1 / 2) 0 (m.db.unsettled 1) ∧
      listOpenWithAccountName.run 0 m.db = .ok ([sampleOwned (sampleMarginTrade 7 "USD_JPY" .open)], m.db) ∧
      m.Selects sampleHalfLevel [sampleOwned (sampleMarginTrade 7 "USD_JPY" .open)] .gmoFx 1 := by
  refine ⟨by decide +kernel, by decide +kernel, ?_, ?_, sampleMargin_listed, by decide +kernel⟩
  · rw [Snapshot.measuredBelow_iff (by decide +kernel)]
    decide +kernel
  · rw [Snapshot.measuredBelow_iff (by decide +kernel)]
    decide +kernel

end AutoTrader
