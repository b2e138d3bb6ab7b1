import AutoTrader.App.ExecutorLoop
import AutoTrader.Lib.Group

/-!
# Liquidation targets

`detectLiquidationTargets` groups the open trades of an exchange by account, values the trades of each
account at the close side of the latest ticks, and selects the accounts whose maintenance ratio is below
the liquidation level. `detectLiquidationTargets_below` says what a selected account is, when the answers
are those of one database and one set of ticks.
-/

namespace AutoTrader

open Lib (Prog Protocol)
open Lib.Prog (Meets Meets.bind)

/-! ## Detection -/

/-- An open trade with the type of its account. -/
structure OpenTradeWithAccount where
  trade : Trade
  /-- Whether its account is live; `none` if no account row matches. -/
  live : Option Bool
  deriving DecidableEq, Repr

/-- All open trades, each with its account, newest entry first. -/
def listOpenWithAccountName : Tx (List OpenTradeWithAccount) := do
  let db ← get
  let rows := db.trades.rows.filter fun r => r.status = .open
  let owned := rows.map fun r =>
    (⟨r.toTrade, (db.accounts.find? r.accountId).map TradingAccount.live⟩ : OpenTradeWithAccount)
  return owned.mergeSort fun o u => u.trade.entryAt ≤ o.trade.entryAt

theorem listOpenWithAccountName_ok {now : DateTime} {db db' : Db} {openTrades : List OpenTradeWithAccount}
    (h : listOpenWithAccountName.run now db = .ok (openTrades, db')) : db' = db ∧
      (openTrades.map OpenTradeWithAccount.trade).Perm
        ((db.trades.rows.filter fun r => r.status = .open).map TradeRow.toTrade) ∧
      ∀ owned ∈ openTrades, owned.live = (db.accounts.find? owned.trade.accountId).map TradingAccount.live := by
  simp only [listOpenWithAccountName, Tx.ok_bind, Tx.run_get, Tx.run_pure] at h
  obtain ⟨_, _, ⟨rfl, rfl⟩, rfl, rfl⟩ := h
  refine ⟨rfl, ?_, fun owned ho => ?_⟩
  · refine ((List.mergeSort_perm _ _).map OpenTradeWithAccount.trade).trans ?_
    rw [List.map_map]
    exact List.Perm.refl _
  · obtain ⟨r, -, rfl⟩ := List.mem_map.mp (List.mem_mergeSort.mp ho)
    rfl

/-- The trades of an account on an exchange, among all open trades. -/
theorem owned_perm {db : Db} (id : Uuid) (exchange : Exchange) {openTrades : List OpenTradeWithAccount}
    (hrows : (openTrades.map OpenTradeWithAccount.trade).Perm
      ((db.trades.rows.filter fun r => r.status = .open).map TradeRow.toTrade)) :
    ((openTrades.filter fun owned => owned.trade.exchange = exchange ∧ owned.trade.accountId = id).map
      OpenTradeWithAccount.trade).Perm
        ((db.trades.rows.filter fun r =>
          decide (r.exchange = exchange ∧ r.accountId = id) && decide (r.status = .open)).map TradeRow.toTrade) := by
  have hfilter := hrows.filter fun u => decide (u.exchange = exchange ∧ u.accountId = id)
  rw [List.filter_map, List.filter_map, List.filter_filter] at hfilter
  exact hfilter

/-- What the liquidation check is given. -/
structure LiquidationContext where
  exchangeLiquidationLevels : Exchange → Option Decimal
  liveForcesDryRun : Bool

/-- The margin ratio is below the threshold. -/
def isBelowLiquidationThreshold (ratio threshold : Decimal) : Bool := ratio < threshold

/-- The trades of each account that has any. -/
abbrev Buckets := List (Uuid × List OpenTradeWithAccount)

/-- The open trades of an exchange by their accounts. -/
def groupOpenTradesByAccount (openTrades : List OpenTradeWithAccount) (exchange : Exchange) : Buckets :=
  Lib.groupBy (fun owned => owned.trade.accountId) (openTrades.filter fun owned => owned.trade.exchange = exchange)

/-- An account whose first trade carries no account type counts as a paper account. -/
def isDryRunBucket (bucket : List OpenTradeWithAccount) (liveForcesDryRun : Bool) : Bool :=
  let live := (bucket.head?.bind OpenTradeWithAccount.live).getD false
  effectiveDryRun live liveForcesDryRun

/-- The ticks that were looked up, also those that are missing. -/
abbrev PriceCache := List ((Exchange × Pair) × Option (Decimal × Decimal))

/-- The latest tick of a pair, read once in a check. -/
def cachedBidAsk (exchange : Exchange) (pair : Pair) (cache : PriceCache) :
    Prog Calls (Option (Decimal × Decimal) × PriceCache) := do
  match cache.lookup (exchange, pair) with
  | some bidAsk => return (bidAsk, cache)
  | none =>
    let bidAsk ← latestTick exchange pair
    return (bidAsk, ((exchange, pair), bidAsk) :: cache)

/-- The trade at the price at which it could be closed. -/
def closeSidePosition (trade : Trade) (bid ask : Decimal) : OpenPosition where
  direction := trade.direction
  entryPrice := trade.entryPrice
  currentPrice := match trade.direction with
    | .long => bid
    | .short => ask
  quantity := trade.quantity
  leverage := trade.leverage

/-- The positions, unless a price is missing. -/
def buildCloseSidePositions : List Trade → PriceCache → Prog Calls (Option (List OpenPosition) × PriceCache)
  | [], cache => return (some [], cache)
  | trade :: trades, cache => do
    let (bidAsk, cache) ← cachedBidAsk trade.exchange trade.pair cache
    match bidAsk with
    | none => return (none, cache)
    | some (bid, ask) =>
      let (positions, cache) ← buildCloseSidePositions trades cache
      return (positions.map fun ps => closeSidePosition trade bid ask :: ps, cache)

/-- The maintenance ratio of an account; `none` if the account is skipped. -/
def liquidationRatioForAccount (accountId : Uuid) (bucket : List OpenTradeWithAccount) (cache : PriceCache) :
    Prog Calls (Option Decimal × PriceCache) := do
  match ← (query (.getAccount accountId)).run with
  | .ok (some account) =>
    let (positions, cache) ← buildCloseSidePositions (bucket.map OpenTradeWithAccount.trade) cache
    return (positions.bind (computeMaintenanceRatio account.currentBalance), cache)
  | .ok none | .error _ => return (none, cache)

/-- The accounts of the buckets that are to be liquidated, with their trades. -/
def detectInBuckets (ctx : LiquidationContext) (threshold : Decimal) :
    Buckets → PriceCache → Prog Calls (List (Uuid × List Uuid))
  | [], _ => return []
  | (accountId, bucket) :: buckets, cache => do
    if !isDryRunBucket bucket ctx.liveForcesDryRun then detectInBuckets ctx threshold buckets cache
    else
      let (ratio, cache) ← liquidationRatioForAccount accountId bucket cache
      let results ← detectInBuckets ctx threshold buckets cache
      match ratio with
      | none => return results
      | some ratio =>
        if isBelowLiquidationThreshold ratio threshold then
          return (accountId, bucket.map fun owned => owned.trade.id) :: results
        else return results

/-- The accounts to close out, with their trades. -/
def detectLiquidationTargets (ctx : LiquidationContext) (openTrades : List OpenTradeWithAccount)
    (exchange : Exchange) : Prog Calls (List (Uuid × List Uuid)) :=
  match ctx.exchangeLiquidationLevels exchange with
  | none => return []
  | some threshold => detectInBuckets ctx threshold (groupOpenTradesByAccount openTrades exchange) []

/-! ## What is selected -/

/-- The database and the ticks that a detection reads. -/
structure Snapshot where
  db : Db
  tick : Exchange → Pair → Option (Decimal × Decimal)

namespace Snapshot

variable (m : Snapshot)

/-- The answer is that of the snapshot; a query may fail. -/
def Gives : (c : Call) → c.Ret → Prop
  | .db (.getAccount id), .ok account => account = m.db.accounts.find? id
  | .latestBidAsk exchange pair, bidAsk => bidAsk = m.tick exchange pair
  | _, _ => True

/-- The answers of the snapshot, where no query fails; what a detection does not ask is not answered. -/
def answer : (c : Call) → c.Ret
  | .db (.getAccount id) => .ok (m.db.accounts.find? id)
  | .latestBidAsk exchange pair => m.tick exchange pair
  | .db _ => .error []
  | .api _ => .error ""
  | .lastTickAge _ _ => none
  | .utcNow | .newUuid | .pollPasses => 0

theorem gives_answer (c : Call) : m.Gives c (m.answer c) := by
  cases c with
  | db q => cases q <;> first | rfl | trivial
  | latestBidAsk => rfl
  | _ => trivial

/-- The phase is whether all answers were those of the snapshot. -/
def observing : Protocol Calls Prop where
  allowed _ _ := True
  next p c r := p ∧ m.Gives c r

/-- A trade valued at the price it would be closed at. -/
def closeSide (trade : Trade) : Option OpenPosition :=
  (m.tick trade.exchange trade.pair).map fun (bid, ask) => closeSidePosition trade bid ask

/-- The cache holds ticks of the snapshot. -/
def Cached (cache : PriceCache) : Prop :=
  ∀ exchange pair bidAsk, cache.lookup (exchange, pair) = some bidAsk → bidAsk = m.tick exchange pair

variable {m} {p : Prop}

/-- What holds of a program that observes the snapshot holds of it with the answers of the snapshot. -/
theorem eval_observing {α : Type} {x : Prog Calls α} {Q : Prop → α → Prop} (h : Meets m.observing True x Q) :
    ∃ q : Prop, q ∧ Q q (x.eval m.answer) :=
  Meets.eval (A := m.observing) (J := fun p => p) (fun _ c hp => And.intro hp (m.gives_answer c)) trivial h

/-- What was observed stays observed. -/
theorem observed {α : Type} {Q : Prop → α → Prop} : ∀ {p : Prop} {x : Prog Calls α}, Meets m.observing p x Q →
    Meets m.observing p x fun q a => (q → p) ∧ Q q a
  | _, .done _, h => ⟨id, h⟩
  | _, .call _ _, h => ⟨trivial, fun r => (observed (h.2 r)).mono fun _ _ hq => ⟨fun h => (hq.1 h).1, hq.2⟩⟩

/-- The price at which the trade can be closed; its entry price without a tick. -/
def closePrice (m : Snapshot) (trade : Trade) : Decimal :=
  match m.tick trade.exchange trade.pair with
  | some (bid, ask) => (closeSidePosition trade bid ask).currentPrice
  | none => trade.entryPrice

theorem mapM_closeSide : ∀ {trades : List Trade} {positions : List OpenPosition},
    trades.mapM m.closeSide = some positions → positions = trades.map fun u => u.valued (m.closePrice u)
  | [], _, h => (Option.some.inj h).symm
  | u :: trades, positions, h => by
    simp only [List.mapM_cons] at h
    obtain ⟨p, hp, h⟩ := Option.bind_eq_some_iff.mp h
    obtain ⟨ps, hps, h⟩ := Option.bind_eq_some_iff.mp h
    obtain ⟨⟨bid, ask⟩, htick, rfl⟩ := Option.map_eq_some_iff.mp hp
    rw [← Option.some.inj h, List.map_cons, ← mapM_closeSide hps]
    simp only [closePrice, htick]
    rfl

theorem cachedBidAsk_observing (exchange : Exchange) (pair : Pair) (cache : PriceCache) (hp : p → m.Cached cache) :
    Meets m.observing p (cachedBidAsk exchange pair cache) fun q r =>
      q → r.1 = m.tick exchange pair ∧ m.Cached r.2 := by
  simp only [cachedBidAsk]
  split
  · rename_i bidAsk hlookup
    exact fun hq => ⟨hp hq _ _ _ hlookup, hp hq⟩
  · refine Meets.bind ⟨trivial, fun bidAsk => ?_⟩
    rintro ⟨hq, hgives⟩
    have hgives : bidAsk = m.tick exchange pair := hgives
    refine ⟨hgives, fun e s b hb => ?_⟩
    rw [List.lookup_cons] at hb
    split at hb
    · rename_i heq
      obtain ⟨rfl, rfl⟩ := Prod.mk.inj (eq_of_beq heq)
      cases hb
      exact hgives
    · exact hp hq e s b hb

theorem buildCloseSidePositions_observing : ∀ (trades : List Trade) (cache : PriceCache) {p : Prop},
    (p → m.Cached cache) → Meets m.observing p (buildCloseSidePositions trades cache) fun q r =>
      q → r.1 = trades.mapM m.closeSide ∧ m.Cached r.2
  | [], _, _, hp => fun hq => ⟨rfl, hp hq⟩
  | trade :: trades, cache, p, hp => by
    refine Meets.bind ((cachedBidAsk_observing _ _ cache hp).mono fun q r hr => ?_)
    obtain ⟨bidAsk, cache'⟩ := r
    dsimp only at hr ⊢
    cases bidAsk with
    | none =>
      refine fun hq => ⟨?_, (hr hq).2⟩
      simp [closeSide, ← (hr hq).1]
    | some tick =>
      obtain ⟨bid, ask⟩ := tick
      have htrades := buildCloseSidePositions_observing trades cache' fun hq => (hr hq).2
      refine Meets.bind ((observed htrades).mono fun q' r' hr' => fun hq' => ?_)
      obtain ⟨hq, hpositions⟩ := hr'
      refine ⟨?_, (hpositions hq').2⟩
      simp only [List.mapM_cons, closeSide, ← (hr (hq hq')).1, (hpositions hq').1]
      cases trades.mapM m.closeSide <;> rfl

theorem liquidationRatioForAccount_observing (accountId : Uuid) (bucket : List OpenTradeWithAccount)
    (cache : PriceCache) (hp : p → m.Cached cache) :
    Meets m.observing p (liquidationRatioForAccount accountId bucket cache) fun q r => q → m.Cached r.2 ∧
      ∀ ratio, r.1 = some ratio → ∃ account positions, m.db.accounts.find? accountId = some account ∧
        (bucket.map OpenTradeWithAccount.trade).mapM m.closeSide = some positions ∧
        computeMaintenanceRatio account.currentBalance positions = some ratio := by
  refine Meets.bind ⟨trivial, fun r => ?_⟩
  rcases r with e | (_ | account)
  · exact fun hq => ⟨hp hq.1, nofun⟩
  · exact fun hq => ⟨hp hq.1, nofun⟩
  · have hbuild := buildCloseSidePositions_observing (bucket.map OpenTradeWithAccount.trade) cache
      (p := m.observing.next p (.db (.getAccount accountId)) (.ok (some account))) fun hq => hp hq.1
    refine Meets.bind ((observed hbuild).mono fun q r hr => fun hq => ?_)
    obtain ⟨hgives, hpositions⟩ := hr
    refine ⟨(hpositions hq).2, fun ratio hratio => ?_⟩
    obtain ⟨positions, hp, hr⟩ := Option.bind_eq_some_iff.mp hratio
    have hfind : some account = m.db.accounts.find? accountId := (hgives hq).2
    exact ⟨account, positions, hfind.symm, (hpositions hq).1.symm.trans hp, hr⟩

variable (m) in
/-- An account whose trades in the bucket are worth less than the threshold. -/
def Below (threshold : Decimal) (accountId : Uuid) (bucket : List OpenTradeWithAccount) : Prop :=
  ∃ account positions ratio, m.db.accounts.find? accountId = some account ∧
    (bucket.map OpenTradeWithAccount.trade).mapM m.closeSide = some positions ∧
    computeMaintenanceRatio account.currentBalance positions = some ratio ∧ ratio < threshold

theorem detectInBuckets_observing (ctx : LiquidationContext) (threshold : Decimal) :
    ∀ (buckets : Buckets) (cache : PriceCache) {p : Prop}, (p → m.Cached cache) →
      Meets m.observing p (detectInBuckets ctx threshold buckets cache) fun q targets =>
        q → ∀ target ∈ targets, ∃ bucket, (target.1, bucket) ∈ buckets ∧ m.Below threshold target.1 bucket
  | [], _, _, _ => fun _ _ h => by cases h
  | (accountId, bucket) :: buckets, cache, p, hp => by
    have skip : ∀ {cache : PriceCache} {p : Prop}, (p → m.Cached cache) →
        Meets m.observing p (detectInBuckets ctx threshold buckets cache) fun q targets => q → ∀ target ∈ targets,
          ∃ b, (target.1, b) ∈ (accountId, bucket) :: buckets ∧ m.Below threshold target.1 b :=
      fun hp => (detectInBuckets_observing ctx threshold buckets _ hp).mono fun q targets h hq target ht => by
        obtain ⟨b, hb, hbelow⟩ := h hq target ht
        exact ⟨b, List.mem_cons_of_mem _ hb, hbelow⟩
    simp only [detectInBuckets]
    split
    · exact skip hp
    refine Meets.bind ((liquidationRatioForAccount_observing accountId bucket cache hp).mono fun q r hr => ?_)
    obtain ⟨ratio, cache'⟩ := r
    refine Meets.bind ((observed (skip fun hq => (hr hq).1)).mono fun q' targets h => ?_)
    cases ratio with
    | none => exact h.2
    | some ratio =>
      dsimp only
      split
      · rename_i hlt
        intro hq' target ht
        rcases List.mem_cons.mp ht with rfl | ht
        · obtain ⟨account, positions, hfind, hpositions, hratio⟩ := (hr (h.1 hq')).2 ratio rfl
          exact ⟨bucket, List.mem_cons_self, account, positions, ratio, hfind, hpositions, hratio,
            of_decide_eq_true hlt⟩
        · exact h.2 hq' target ht
      · exact h.2

/-- A detection whose answers are those of a snapshot selects an account only if its trades on the exchange
are worth less, at the ticks of the snapshot, than the liquidation level asks for. -/
theorem detectLiquidationTargets_below (ctx : LiquidationContext) (openTrades : List OpenTradeWithAccount)
    (exchange : Exchange) :
    Meets m.observing True (detectLiquidationTargets ctx openTrades exchange) fun q targets => q →
      ∀ target ∈ targets, ∃ threshold, ctx.exchangeLiquidationLevels exchange = some threshold ∧
        m.Below threshold target.1 (openTrades.filter fun owned =>
          owned.trade.exchange = exchange ∧ owned.trade.accountId = target.1) := by
  simp only [detectLiquidationTargets]
  split
  · exact fun _ _ h => by cases h
  · rename_i threshold hlevel
    refine (detectInBuckets_observing ctx threshold _ [] fun _ => ?_).mono fun q targets h hq target ht => ?_
    · intro e s b hb
      cases hb
    · obtain ⟨bucket, hbucket, hbelow⟩ := h hq target ht
      have hfilter := Lib.mem_groupBy hbucket
      rw [List.filter_filter] at hfilter
      refine ⟨threshold, hlevel, ?_⟩
      rw [hfilter] at hbelow
      simpa [and_comm] using hbelow

end Snapshot

end AutoTrader
