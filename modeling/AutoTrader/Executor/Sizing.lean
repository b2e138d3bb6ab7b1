import AutoTrader.Executor.Play

/-!
# What an open is sized from

An open reads the account and a tick, and sizes its order from them: the margin level that the account is
liquidated at times the margin, and the loss at the stop, fit into the balance that was read
(`calculateQuantity_fits`). The protocol `sizing` keeps what was read until the trade is persisted.
-/

namespace AutoTrader

open Lib (Config History Label Prog Protocol Step)
open Lib.Prog (Meets MeetsE Only)

/-! ## The quantity -/

/-- The price an open counts on. -/
def hintPrice (direction : Direction) (tick : Decimal × Decimal) : Decimal :=
  match direction with
  | .long => tick.2
  | .short => tick.1

/-- What a trade loses when it is closed at its stop. -/
def Trade.stopLossAmount (t : Trade) : Decimal :=
  (match t.direction with
    | .long => t.entryPrice - t.stopLoss
    | .short => t.stopLoss - t.entryPrice) * t.quantity

namespace PositionSizer

variable {s : PositionSizer} {pair : Pair} {balance price leverage alloc stop level q : Decimal}

/-- The part of the balance that may become margin. -/
def allowedAllocation (s : PositionSizer) (leverage alloc stop level : Decimal) : Decimal :=
  min (1 / (level + s.marginBuffer + leverage * stop)) alloc

/-- The part of the balance that a quantity takes as margin. -/
def allocated (balance price leverage quantity : Decimal) : Decimal := quantity * price / (balance * leverage)

theorem allocated_le_iff {p : Decimal} (hb : 0 < balance) (hp : 0 < price) (hl : 0 < leverage) :
    allocated balance price leverage q ≤ p ↔ q ≤ balance * leverage * p / price := by
  rw [allocated, div_le_iff₀ (mul_pos hb hl), le_div_iff₀ hp, mul_comm p]

theorem lt_allocated_iff {p : Decimal} (hb : 0 < balance) (hp : 0 < price) (hl : 0 < leverage) :
    p < allocated balance price leverage q ↔ balance * leverage * p / price < q :=
  lt_iff_lt_of_le_iff_le (allocated_le_iff hb hp hl)

/-- The inputs a quantity is calculated for. It keeps to the allowed allocation, and where there are lots it is
made of whole ones and the next lot would not. -/
theorem calculateQuantity_spec (h : s.calculateQuantity pair balance price leverage alloc stop level = some q) :
    (0 < balance ∧ 0 < price ∧ 0 < leverage ∧ 0 < alloc ∧ alloc ≤ 1 ∧ 0 < stop ∧ 0 < level) ∧ 0 < q ∧
      allocated balance price leverage q ≤ s.allowedAllocation leverage alloc stop level ∧
      ∀ minSize ∈ s.minOrderSizes pair, 0 < minSize → (∃ k : Nat, 0 < k ∧ q = k * minSize) ∧
        s.allowedAllocation leverage alloc stop level < allocated balance price leverage (q + minSize) := by
  simp only [calculateQuantity] at h
  split at h
  · cases h
  rename_i hvalid
  simp only [not_or, not_le, not_lt] at hvalid
  obtain ⟨hbalance, hprice, hleverage, halloc⟩ := hvalid
  refine ⟨⟨hbalance, hprice, hleverage, halloc⟩, ?_⟩
  change (if 0 < (s.minOrderSizes pair).getD 0 then _ else _) = _ at h
  simp only [allocated_le_iff hbalance hprice hleverage, lt_allocated_iff hbalance hprice hleverage, allowedAllocation]
  set rawQty := balance * leverage * min (1 / (level + s.marginBuffer + leverage * stop)) alloc / price
  split at h
  · rename_i hmin
    set size := (s.minOrderSizes pair).getD 0 with hsize
    split at h
    · cases h
    rename_i hlt
    cases h
    have hfloor : 1 ≤ ⌊rawQty / size⌋ := by
      by_contra hn
      have : ((⌊rawQty / size⌋ : Int) : Rat) ≤ 0 := by exact_mod_cast (by omega : ⌊rawQty / size⌋ ≤ 0)
      nlinarith
    refine ⟨by linarith, (le_div_iff₀ hmin).mp (Int.floor_le _), fun minSize hm _ => ?_⟩
    obtain rfl : size = minSize := by rw [hsize, hm]; rfl
    refine ⟨⟨⌊rawQty / size⌋.toNat, by omega, ?_⟩, ?_⟩
    · congr 1
      exact_mod_cast (Int.toNat_of_nonneg (by omega)).symm
    · have := (div_lt_iff₀ hmin).mp (Int.lt_floor_add_one (rawQty / size))
      linarith
  · rename_i hmin
    split at h
    · rename_i hraw
      have hq : rawQty = q := Option.some.inj h
      rw [← hq]
      refine ⟨hraw, le_refl _, fun minSize hm hpos => absurd ?_ hmin⟩
      rw [hm]
      exact hpos
    · cases h

/-- The inputs a quantity is calculated for, and its bound. -/
theorem calculateQuantity_le (hb : 0 ≤ s.marginBuffer)
    (h : s.calculateQuantity pair balance price leverage alloc stop level = some q) :
    0 < balance ∧ 0 < price ∧ 0 < leverage ∧ 0 < stop ∧ 0 < level ∧ 0 < q ∧
      q * price * (level + s.marginBuffer + leverage * stop) ≤ balance * leverage := by
  obtain ⟨⟨hbalance, hprice, hleverage, -, -, hstop, hlevel⟩, hq, hle, -⟩ := calculateQuantity_spec h
  refine ⟨hbalance, hprice, hleverage, hstop, hlevel, hq, ?_⟩
  have hls : 0 < leverage * stop := mul_pos hleverage hstop
  have hden : 0 < level + s.marginBuffer + leverage * stop := by linarith
  have hone : q * price / (balance * leverage) ≤ 1 / (level + s.marginBuffer + leverage * stop) :=
    hle.trans (min_le_left _ _)
  rw [div_le_div_iff₀ (mul_pos hbalance hleverage) hden, one_mul] at hone
  exact hone

end PositionSizer

/-- The position that a signal opens at a price, valued at its stop. -/
def Signal.atStop (signal : Signal) (price leverage quantity : Decimal) : OpenPosition where
  direction := signal.direction
  entryPrice := price
  currentPrice := (Trader.computeStopLevels signal price).1
  quantity := quantity
  leverage := leverage

theorem Signal.unrealizedPnl_atStop (signal : Signal) (price leverage quantity : Decimal) :
    (signal.atStop price leverage quantity).unrealizedPnl = -(signal.stopLossPct * (price * quantity)) := by
  simp only [OpenPosition.unrealizedPnl, atStop, Trader.computeStopLevels]
  cases signal.direction <;> ring

/-- A position of the size it was calculated for: its margin, and what the margin level and the buffer ask of
it together with the loss at its stop, fit into the balance. -/
theorem calculateQuantity_fits {s : PositionSizer} {signal : Signal} {pair : Pair}
    {balance price leverage alloc level q : Decimal} (hb : 0 ≤ s.marginBuffer)
    (hq : s.calculateQuantity pair balance price leverage alloc signal.stopLossPct level = some q) :
    0 ≤ (signal.atStop price leverage q).requiredMargin ∧ (signal.atStop price leverage q).unrealizedPnl ≤ 0 ∧
      (level + s.marginBuffer) * (signal.atStop price leverage q).requiredMargin ≤
        balance + (signal.atStop price leverage q).unrealizedPnl := by
  obtain ⟨-, hprice, hleverage, hs, hlevel, hquantity, hle⟩ := PositionSizer.calculateQuantity_le hb hq
  have hnotional : 0 < price * q := mul_pos hprice hquantity
  have hmargin : (signal.atStop price leverage q).requiredMargin ≤ price * q / leverage :=
    OpenPosition.requiredMargin_le hprice.le hquantity.le hleverage.le
  rw [signal.unrealizedPnl_atStop]
  refine ⟨OpenPosition.requiredMargin_nonneg hprice.le hquantity.le hleverage.le, ?_, ?_⟩
  · linarith [mul_pos hs hnotional]
  · have hscaled : (level + s.marginBuffer) * (price * q) ≤
        (balance - signal.stopLossPct * (price * q)) * leverage := by linarith
    calc (level + s.marginBuffer) * (signal.atStop price leverage q).requiredMargin
        ≤ (level + s.marginBuffer) * (price * q / leverage) :=
          mul_le_mul_of_nonneg_left hmargin (add_nonneg hlevel.le hb)
      _ = (level + s.marginBuffer) * (price * q) / leverage := mul_div_assoc' _ _ _
      _ ≤ balance - signal.stopLossPct * (price * q) := (div_le_iff₀ hleverage).mpr hscaled
      _ = balance + -(signal.stopLossPct * (price * q)) := sub_eq_add_neg _ _

/-! ## The protocol -/

/-- What an open has read to size its order. -/
structure Basis where
  account : Option TradingAccount
  tick : Option (Decimal × Decimal)

/-- Nothing yet. -/
def Basis.none : Basis := ⟨.none, .none⟩

namespace Trader

variable (t : Trader) (signal : Signal)

/-- The quantity that the trader orders on what it has read. -/
def sizedQuantity (account : TradingAccount) (tick : Decimal × Decimal) : Option Decimal :=
  t.positionSizer.calculateQuantity signal.pair account.currentBalance
    (hintPrice signal.direction tick) account.leverage
    signal.allocationPct signal.stopLossPct t.liquidationMarginLevel

/-- A trade opened on what was read: an order could be sized, and the terms are those of the signal and the
account. The fill may have another price and size than the order. -/
def OpensOn (b : Basis) (trade : Trade) : Prop :=
  ∃ account tick quantity, b.account = some account ∧ b.tick = some tick ∧
    t.sizedQuantity signal account tick = some quantity ∧ trade.leverage = account.leverage ∧
    trade.direction = signal.direction ∧ trade.exchange = t.exchange ∧ trade.status = .open ∧
    trade.stopLoss = (computeStopLevels signal trade.entryPrice).1

/-- The first tick is the one an order is sized with; a dry run is filled at the second. -/
def sizing : Protocol Calls Basis where
  allowed
    | b, .db (.persistOpenTrade accountId trade margin) =>
      t.OpensOn signal b trade ∧ accountId = t.accountId ∧ trade.accountId = accountId ∧ margin = trade.margin
    | _, _ => True
  next
    | b, .db (.getAccount _), .ok account => { b with account }
    | b, .latestBidAsk _ _, tick => { b with tick := b.tick.or tick }
    | b, _, _ => b

theorem sizing_quiet {b : Basis} (hb : b.tick.isSome) (c : Call) (hc : c.quiet) :
    (t.sizing signal).allowed b c ∧ ∀ r, (t.sizing signal).next b c r = b := by
  cases c with
  | db q => exact hc.elim
  | latestBidAsk exchange pair =>
    refine ⟨trivial, fun tick => ?_⟩
    obtain ⟨account, read⟩ := b
    obtain ⟨first, rfl⟩ := Option.isSome_iff_exists.mp hb
    rfl
  | _ => exact ⟨trivial, fun _ => rfl⟩

/-- The tick that is read first is kept. -/
theorem latestBidAsk_sizing (account : Option TradingAccount) (pair : Pair) :
    MeetsE (t.sizing signal) ⟨account, none⟩ (t.latestBidAsk pair) (fun b tick => b = ⟨account, some tick⟩)
      fun _ _ => True := by
  refine MeetsE.bind ⟨trivial, fun tick => ?_⟩
  cases tick with
  | none => exact trivial
  | some tick => exact rfl

theorem prepareEntry_sizing : MeetsE (t.sizing signal) .none (t.prepareEntry signal)
    (fun b entry => ∃ account tick, b = ⟨some account, some tick⟩ ∧ entry.1 = account.leverage ∧
      t.sizedQuantity signal account tick = some entry.2.1) fun _ _ => True := by
  refine MeetsE.bind (meets_query trivial (fun account => ?_) fun _ => trivial)
  cases account with
  | none => exact MeetsE.throw trivial
  | some account =>
    dsimp only
    split
    · exact MeetsE.bind (MeetsE.throw trivial)
    refine MeetsE.bind ((t.latestBidAsk_sizing signal (some account) signal.pair).mono (fun b tick hb => ?_)
      fun _ _ _ => trivial)
    subst hb
    have hquiet := t.sizing_quiet signal (b := ⟨some account, some tick⟩) rfl
    split
    · rename_i quantity hquantity
      exact MeetsE.bindLift_of_only quiet_utcNow hquiet fun now =>
        MeetsE.pure ⟨account, tick, rfl, rfl, hquantity⟩
    · exact MeetsE.throw trivial

/-- An open persists a trade that was opened on what it has read. -/
theorem execute_sizing : MeetsE (t.sizing signal) .none (t.execute signal) (fun _ _ => True) fun _ _ => True := by
  refine MeetsE.bind ((t.prepareEntry_sizing signal).mono (fun b entry hentry => ?_) fun _ _ _ => trivial)
  obtain ⟨account, tick, rfl, hleverage, hquantity⟩ := hentry
  have hquiet := t.sizing_quiet signal (b := ⟨some account, some tick⟩) rfl
  have hfill : MeetsE (t.sizing signal) ⟨some account, some tick⟩ (t.fillOpen signal entry.2.1)
      (fun b _ => b = ⟨some account, some tick⟩) fun _ _ => True := by
    refine Meets.mono (fun b r hb => ?_) ((t.quiet_fillOpen signal entry.2.1).meets hquiet)
    cases r with
    | ok fill => exact hb
    | error e => trivial
  refine MeetsE.bind (hfill.mono (fun b fill hb => ?_) fun _ _ _ => trivial)
  subst hb
  refine MeetsE.bindLift_of_only quiet_utcNow hquiet fun entryAt => ?_
  refine MeetsE.bindLift_of_only (t.only_resolveExchangePositionId trivial) hquiet fun pid => ?_
  refine MeetsE.bindLift_of_only (t.only_placeProtectiveStopOrder fun _ _ => trivial) hquiet fun stop => ?_
  refine MeetsE.bindLift_of_only quiet_newUuid hquiet fun id => ?_
  refine MeetsE.bind (meets_query ⟨?_, rfl, rfl, rfl⟩ (fun _ => MeetsE.pure trivial) fun _ => trivial)
  exact ⟨account, tick, entry.2.1, rfl, rfl, hquantity, hleverage, rfl, rfl, rfl, rfl⟩

theorem meets_sizing : Meets (t.sizing signal) .none (Actor.execute t signal).prog.run fun _ _ => True :=
  MeetsE.run (MeetsE.map (R := fun _ _ => True) (t.execute_sizing signal))

end Trader

end AutoTrader
