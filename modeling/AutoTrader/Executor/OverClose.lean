import AutoTrader.Executor.Book
import AutoTrader.Executor.CloseOrders

/-!
# What closing a trade executes

The market orders that close attempts on a trade send, and its protective stop order, must not execute
more than the quantity of the trade. The code does not see to it: a close attempt that failed after its
order was accepted gives the lock back, and the next one sends the whole quantity again
(`sampleOverClose_exceeds`). `never_over_closes` says when it holds: in every run whose steps are all
`Careful`, what the accepted orders have executed and may still execute stays within the quantity.
-/

namespace AutoTrader

open Lib (Config History Label Step)

variable {actors : Nat → Actor} {w₀ : World Book} {r₀ : TradeRow}

/-! ## The orders of a trade -/

/-- Market orders sent by close attempts on the trade. -/
def closingOrder (actors : Nat → Actor) (id : Uuid) : OrderKind → Bool
  | .market sender _ => (actors sender).closes id
  | .stop _ => false

/-- The protective stop order of the trade. -/
def protectiveStop (r₀ : TradeRow) : OrderKind → Bool
  | .market _ _ => false
  | .stop id => r₀.stopOrderId = some id

/-- The task that sent an order in this step. -/
def sentBy : Label Calls Move → Option Nat
  | .call i (.api (.sendChildOrder _)) _ => some i
  | _ => none

/-- The attempt whose stop guard lets it go on after this step. -/
def stopPassedBy : Label Calls Move → Option Nat
  | .call i (.api (.stopOrderStatus _ _)) (.ok .gone) => some i
  | .call i (.api (.cancelStopOrder _ _)) (.ok _) => some i
  | _ => none

namespace Run

/-- What the stop order had executed when the attempt read the positions; zero if it never did. -/
def accounted (r₀ : TradeRow) (h : Run Book) : Nat → Decimal :=
  h.ghost (fun f c l _ => match positionsRead l with
    | some (i, _) => Function.update f i (c.world.exchange.executed (protectiveStop r₀))
    | none => f) fun _ => 0

end Run

/-! ## When the code stays within the quantity -/

/-- A step that does not take one of the branches that go wrong. -/
structure Careful (actors : Nat → Actor) (r₀ : TradeRow) (h : Run Book) (l : Label Calls Move)
    (c : Config Calls (World Book) (Except Error Outcome)) : Prop where
  /-- Nobody releases a lock that was taken over. -/
  late : NoLateRelease r₀.id h l c
  /-- Nobody releases the trade when an order sent for it has executed or may still execute. -/
  release : ∀ i ∈ releasedBy r₀.id l, (∃ r ∈ h.world.db.trades.find? r₀.id, r.status = .closing) →
    h.world.exchange.reach (closingOrder actors r₀.id) ≤ 0
  /-- An order is accepted only of an attempt whose lock was not taken over. -/
  send : ∀ i ∈ sentBy l, (actors i).closes r₀.id → c.world.exchange ≠ h.world.exchange →
    (h.lockLog r₀.id).overtaken i = false
  /-- The positions that a stale recovery reads leave room for the orders sent before it. -/
  positions : ∀ p ∈ positionsRead l, (actors p.1).closes r₀.id → (h.lockLog r₀.id).overtaken p.1 = false →
    ∀ trade ∈ (h.closePhase p.1).recovering?, ∀ size ∈ recoverySize trade p.2,
      size + h.world.exchange.reach (closingOrder actors r₀.id) + h.world.exchange.executed (protectiveStop r₀) ≤
        r₀.quantity
  /-- When the stop guard passes, the stop has executed nothing that the size does not account for, and
  never will. -/
  stop : ∀ i ∈ stopPassedBy l, (actors i).closes r₀.id → (h.lockLog r₀.id).overtaken i = false →
    c.world.exchange.reach (protectiveStop r₀) ≤ h.accounted r₀ i

instance (h : Run Book) (l : Label Calls Move) (c : Config Calls (World Book) (Except Error Outcome)) :
    Decidable (Careful actors r₀ h l c) :=
  decidable_of_iff (_ ∧ _ ∧ _ ∧ _ ∧ _)
    ⟨fun ⟨h1, h2, h3, h4, h5⟩ => ⟨h1, h2, h3, h4, h5⟩, fun h => ⟨h.late, h.release, h.send, h.positions, h.stop⟩⟩

/-- The size an attempt may send from its phase, and what it has made sure of. -/
def ClosePhase.fits (q market stop accounted : Decimal) : ClosePhase → Prop
  | .sized _ size => 0 ≤ size ∧ size + market + accounted ≤ q
  | .ready _ size => 0 ≤ size ∧ size + market + stop ≤ q
  | _ => True

/-- What bounds the size that can still be closed. -/
structure Bounded (actors : Nat → Actor) (r₀ : TradeRow) (h : Run Book) : Prop where
  row : ∃ r, h.world.db.trades.find? r₀.id = some r ∧ r.terms = r₀.terms ∧
    (r.status = .open → h.world.exchange.reach (closingOrder actors r₀.id) ≤ 0)
  stop : ∀ id, r₀.stopOrderId = some id → ∃ o ∈ h.world.exchange.orders, o.kind = .stop id
  total : h.world.exchange.reach (closingOrder actors r₀.id) + h.world.exchange.reach (protectiveStop r₀) ≤ r₀.quantity
  terms : ∀ i, (actors i).closes r₀.id → ∀ trade, (h.closePhase i).trade? = some trade →
    trade.stopOrderId = r₀.stopOrderId
  fresh : ∀ i, (actors i).closes r₀.id → h.closePhase i = .idle → h.accounted r₀ i = 0
  size : ∀ i, (actors i).closes r₀.id → (h.lockLog r₀.id).overtaken i = false →
    (h.closePhase i).fits r₀.quantity (h.world.exchange.reach (closingOrder actors r₀.id))
      (h.world.exchange.reach (protectiveStop r₀)) (h.accounted r₀ i)

/-! ## The phases of a run -/

namespace Run

variable {h : Run Book} {l : Label Calls Move} {c : Config Calls (World Book) (Except Error Outcome)} {i j : Nat}

theorem accounted_of_none (hl : positionsRead l = none) : accounted r₀ (.step h l c) = accounted r₀ h := by
  simp only [accounted, History.ghost, hl]

theorem accounted_call_ne (q : Calls.Call) (r : Calls.Ret q) (hij : j ≠ i) :
    accounted r₀ (.step h (.call i q r) c) j = accounted r₀ h j := by
  cases hl : positionsRead (.call i q r) with
  | none => rw [accounted_of_none hl]
  | some p =>
    have hp : p.1 = i := by
      cases q with
      | api q => cases q <;> first | cases hl | (cases r <;> cases hl; rfl)
      | _ => cases hl
    simp only [accounted, History.ghost, hl]
    rw [hp]
    exact Function.update_of_ne hij ..

theorem accounted_of_some {positions : List ExchangePosition} (hl : positionsRead l = some (i, positions)) :
    accounted r₀ (.step h l c) =
      Function.update (accounted r₀ h) i (h.world.exchange.executed (protectiveStop r₀)) := by
  simp only [accounted, History.ghost, hl]
  rfl

end Run

section

variable {b : Book} {q market market' stop stop' accounted : Decimal} {p : ClosePhase}

theorem protectiveStop_of_none (hs : r₀.stopOrderId = none) (k : OrderKind) : protectiveStop r₀ k = false := by
  cases k <;> simp [protectiveStop, hs]

theorem reach_of_none (hs : r₀.stopOrderId = none) : b.reach (protectiveStop r₀) = 0 := by
  simp [Book.reach, protectiveStop_of_none hs]

theorem accounted_zero (hs : r₀.stopOrderId = none) (i : Nat) : ∀ h : Run Book, h.accounted r₀ i = 0
  | .start _ => rfl
  | .step h l c => by
    cases hl : positionsRead l with
    | none =>
      rw [Run.accounted_of_none hl]
      exact accounted_zero hs i h
    | some p =>
      rw [Run.accounted_of_some hl]
      by_cases hij : i = p.1
      · rw [hij, Function.update_self]
        simp [Book.executed, protectiveStop_of_none hs]
      · rw [Function.update_of_ne hij]
        exact accounted_zero hs i h

theorem ClosePhase.fits_of_none (h : p.trade? = none) : p.fits q market stop accounted := by
  cases p <;> trivial

theorem ClosePhase.fits.mono (h : p.fits q market stop accounted) (hm : market' ≤ market) (hs : stop' ≤ stop) :
    p.fits q market' stop' accounted := by
  cases p with
  | sized trade size => exact ⟨h.1, by linarith [h.2]⟩
  | ready trade size => exact ⟨h.1, by linarith [h.2]⟩
  | _ => trivial

end

/-! ## One step -/

section

variable {h : Run Book} {l : Label Calls Move} {c : Config Calls (World Book) (Except Error Outcome)} {i j : Nat}

/-- What an attempt may send after a call that did not send its order. -/
theorem Bounded.fits_api {q : ApiCall} {r : q.Ret} (hb : Bounded actors r₀ h)
    (hcare : Careful actors r₀ h (.call i (.api q) r) c) (hi : (actors i).closes r₀.id)
    (hov : (h.lockLog r₀.id).overtaken i = false) (hallowed : closing.allowed (h.closePhase i) (.api q))
    (hm : c.world.exchange.reach (closingOrder actors r₀.id) ≤ h.world.exchange.reach (closingOrder actors r₀.id))
    (hs : c.world.exchange.reach (protectiveStop r₀) ≤ h.world.exchange.reach (protectiveStop r₀)) :
    (closing.next (h.closePhase i) (.api q) r).fits r₀.quantity (c.world.exchange.reach (closingOrder actors r₀.id))
      (c.world.exchange.reach (protectiveStop r₀)) (Run.accounted r₀ (.step h (.call i (.api q) r) c) i) := by
  have hfits := hb.size i hi hov
  generalize hp : h.closePhase i = p at hallowed hfits ⊢
  have keep : positionsRead (.call i (.api q) r) = none →
      p.fits r₀.quantity (c.world.exchange.reach (closingOrder actors r₀.id))
        (c.world.exchange.reach (protectiveStop r₀)) (Run.accounted r₀ (.step h (.call i (.api q) r) c) i) := by
    intro hnone
    rw [Run.accounted_of_none hnone]
    exact hfits.mono hm hs
  have pass : ∀ trade size, p = .sized trade size → stopPassedBy (.call i (.api q) r) = some i →
      positionsRead (.call i (.api q) r) = none →
      (ClosePhase.ready trade size).fits r₀.quantity (c.world.exchange.reach (closingOrder actors r₀.id))
        (c.world.exchange.reach (protectiveStop r₀)) (Run.accounted r₀ (.step h (.call i (.api q) r) c) i) := by
    rintro trade size rfl hpass -
    have := hcare.stop i hpass hi hov
    exact ⟨hfits.1, by linarith [hfits.2]⟩
  cases q with
  | sendChildOrder req => cases p <;> trivial
  | getPositions pair =>
    cases p with
    | recovering trade =>
      cases r with
      | error e => trivial
      | ok positions =>
        simp only [closing, ClosePhase.afterPositions]
        split
        · rename_i size hsize
          have hroom := hcare.positions _ rfl hi hov trade (by rw [hp]; rfl) size hsize
          refine ⟨recoverySize_nonneg hsize, ?_⟩
          rw [Run.accounted_of_some rfl, Function.update_self]
          linarith
        · trivial
    | _ => exact hallowed.elim
  | stopOrderStatus pair id =>
    cases p with
    | sized trade size =>
      rcases r with e | (_ | _ | _)
      · exact keep rfl
      · exact keep rfl
      · exact keep rfl
      · exact pass trade size rfl rfl rfl
    | _ => exact hallowed.elim
  | cancelStopOrder pair id =>
    cases p with
    | sized trade size =>
      cases r with
      | ok _ => exact pass trade size rfl rfl rfl
      | error e => exact keep rfl
    | _ => exact hallowed.elim
  | _ => cases p <;> exact keep rfl

/-- No order of the trade was accepted. -/
def Apart (actors : Nat → Actor) (r₀ : TradeRow) (b b' : Book) : Prop :=
  b.Moves b' ∨ (∃ i req, ¬ (actors i).closes r₀.id ∧ b' = b.accept i req) ∨
    ∃ id size, (∀ o ∈ b.orders, o.kind ≠ .stop id) ∧ b' = b.placeStop id size

theorem Apart.market {b b' : Book} (h : Apart actors r₀ b b') :
    b'.reach (closingOrder actors r₀.id) ≤ b.reach (closingOrder actors r₀.id) := by
  rcases h with h | ⟨i, req, hi, rfl⟩ | ⟨id, size, -, rfl⟩
  · exact h.reach_le
  · rw [Book.reach_accept]
    simp [closingOrder, hi]
  · rw [Book.reach_placeStop]
    simp [closingOrder]

theorem Apart.stop {b b' : Book} (h : Apart actors r₀ b b')
    (hstop : ∀ id, r₀.stopOrderId = some id → ∃ o ∈ b.orders, o.kind = .stop id) :
    b'.reach (protectiveStop r₀) ≤ b.reach (protectiveStop r₀) := by
  rcases h with h | ⟨i, req, hi, rfl⟩ | ⟨id, size, hnew, rfl⟩
  · exact h.reach_le
  · rw [Book.reach_accept]
    simp [protectiveStop]
  · have hne : r₀.stopOrderId ≠ some id := fun he => by
      obtain ⟨o, ho, hk⟩ := hstop id he
      exact hnew o ho hk
    rw [Book.reach_placeStop]
    simp [protectiveStop, hne]

theorem Apart.kinds {b b' : Book} (h : Apart actors r₀ b b') {k : OrderKind} (hk : ∃ o ∈ b.orders, o.kind = k) :
    ∃ o ∈ b'.orders, o.kind = k := by
  rcases h with h | ⟨i, req, -, rfl⟩ | ⟨id, size, -, rfl⟩
  · exact (h.kinds k).mp hk
  · obtain ⟨o, ho, hk⟩ := hk
    exact ⟨o, List.mem_cons_of_mem _ ho, hk⟩
  · obtain ⟨o, ho, hk⟩ := hk
    exact ⟨o, List.mem_cons_of_mem _ ho, hk⟩

/-- A step in which no order of the trade was accepted and its row was left alone. -/
theorem Bounded.calm (hb : Bounded actors r₀ h)
    (hrow : c.world.db.trades.find? r₀.id = h.world.db.trades.find? r₀.id)
    (hlog : Run.lockLog r₀.id (.step h l c) = h.lockLog r₀.id)
    (hapart : Apart actors r₀ h.world.exchange c.world.exchange)
    (hphase : ∀ i, (actors i).closes r₀.id → (∀ trade, (Run.closePhase (.step h l c) i).trade? = some trade →
        (h.closePhase i).trade? = some trade) ∧
      (Run.closePhase (.step h l c) i = .idle → Run.accounted r₀ (.step h l c) i = 0) ∧
      ((h.lockLog r₀.id).overtaken i = false →
        c.world.exchange.reach (closingOrder actors r₀.id) ≤ h.world.exchange.reach (closingOrder actors r₀.id) →
        c.world.exchange.reach (protectiveStop r₀) ≤ h.world.exchange.reach (protectiveStop r₀) →
        (Run.closePhase (.step h l c) i).fits r₀.quantity (c.world.exchange.reach (closingOrder actors r₀.id))
          (c.world.exchange.reach (protectiveStop r₀)) (Run.accounted r₀ (.step h l c) i))) :
    Bounded actors r₀ (.step h l c) := by
  have hm := hapart.market
  have hs := hapart.stop hb.stop
  refine ⟨?_, fun id hid => hapart.kinds (hb.stop id hid), ?_,
    fun i hi trade ht => hb.terms i hi trade ((hphase i hi).1 trade ht), fun i hi => (hphase i hi).2.1,
    fun i hi hov => (hphase i hi).2.2 (hlog ▸ hov) hm hs⟩
  · obtain ⟨r, hr, ht, ho⟩ := hb.row
    exact ⟨r, by rw [History.world_step, hrow]; exact hr, ht, fun hopen => hm.trans (ho hopen)⟩
  · have := hb.total
    rw [History.world_step]
    linarith

/-- A call of the exchange that did not accept an order of the trade. -/
theorem Bounded.api {q : ApiCall} {r : q.Ret} (hb : Bounded actors r₀ h) (hv : h.Of bookModel w₀ actors)
    (hs : Step (worldSys bookModel) h.last (.call i (.api q) r) c)
    (hcare : Careful actors r₀ h (.call i (.api q) r) c) (hdb : c.world.db = h.world.db)
    (hapart : Apart actors r₀ h.world.exchange c.world.exchange) :
    Bounded actors r₀ (.step h (.call i (.api q) r) c) := by
  have hlog : Run.lockLog r₀.id (.step h (.call i (.api q) r) c) = h.lockLog r₀.id := by
    rw [Run.lockLog_step, LockLog.after, acquisition_quiet (show quietStep (.call i (.api q) r) from trivial)]
  refine hb.calm (by rw [hdb]) hlog hapart fun j hj => ?_
  by_cases hji : j = i
  · subst hji
    have hallowed : closing.allowed (h.closePhase j) _ := hv.closing_allowed hs hj
    rw [Run.closePhase_call]
    refine ⟨fun trade ht => ?_, fun hidle => ?_, fun hov hm hst => hb.fits_api hcare hj hov hallowed hm hst⟩
    · rcases closing_next_quiet (c := .api q) trivial r with hn | hn
      · exact hn ▸ ht
      · rw [hn] at ht
        cases ht
    · have hidle := closing_next_idle hidle
      rw [hidle] at hallowed
      rw [Run.accounted_of_none]
      · exact hb.fresh j hj hidle
      · cases q <;> first | rfl | exact hallowed.elim
  · rw [Run.closePhase_call_ne _ _ hji, Run.accounted_call_ne _ _ hji]
    exact ⟨fun _ ht => ht, hb.fresh j hj, fun hov hm hst => (hb.size j hj hov).mono hm hst⟩

/-- Two attempts that both have a trade to close and were not overtaken are the same. -/
theorem Custody.unique (hc : Custody actors r₀.id h) (hv : h.Of bookModel w₀ actors) {t u : Trade}
    (hi : (actors i).closes r₀.id) (hj : (actors j).closes r₀.id) (hti : (h.closePhase i).trade? = some t)
    (htj : (h.closePhase j).trade? = some u) (hoi : (h.lockLog r₀.id).overtaken i = false)
    (hoj : (h.lockLog r₀.id).overtaken j = false) : i = j := by
  have hi' := (hc.owned i ⟨hi, t, hv.holds hi hti⟩ hoi).1
  have hj' := (hc.owned j ⟨hj, u, hv.holds hj htj⟩ hoj).1
  exact Option.some.inj (hi'.symm.trans hj')

/-- An order in the size that the attempt was set on leaves room for all others. -/
theorem Bounded.room {req : SendChildOrderRequest} (hb : Bounded actors r₀ h) (hi : (actors i).closes r₀.id)
    (hov : (h.lockLog r₀.id).overtaken i = false)
    (hallowed : closing.allowed (h.closePhase i) (.api (.sendChildOrder req))) :
    ∃ trade, (h.closePhase i).trade? = some trade ∧ 0 ≤ req.size ∧
      req.size + h.world.exchange.reach (closingOrder actors r₀.id) +
        h.world.exchange.reach (protectiveStop r₀) ≤ r₀.quantity := by
  have hfits := hb.size i hi hov
  have hterms := hb.terms i hi
  generalize h.closePhase i = p at hallowed hfits hterms ⊢
  cases p with
  | sized trade size =>
    obtain ⟨hstop, rfl⟩ := hallowed
    have hnone : r₀.stopOrderId = none := by rw [← hterms trade rfl, hstop]
    refine ⟨trade, rfl, hfits.1, ?_⟩
    have := hfits.2
    rw [accounted_zero hnone] at this
    rw [reach_of_none hnone]
    exact this
  | ready trade size =>
    obtain rfl : req = Trader.closeOrderRequest trade size := hallowed
    exact ⟨trade, rfl, hfits⟩
  | _ => exact hallowed.elim

/-- The exchange accepted an order of a close attempt on the trade. -/
theorem Bounded.accept {req : SendChildOrderRequest} {r : Except ApiError String} (hb : Bounded actors r₀ h)
    (hv : h.Of bookModel w₀ actors) (hs : Step (worldSys bookModel) h.last (.call i (.api (.sendChildOrder req)) r) c)
    (hcust : Custody actors r₀.id h) (hcare : Careful actors r₀ h (.call i (.api (.sendChildOrder req)) r) c)
    (hi : (actors i).closes r₀.id) (hdb : c.world.db = h.world.db)
    (hx : c.world.exchange = h.world.exchange.accept i req) :
    Bounded actors r₀ (.step h (.call i (.api (.sendChildOrder req)) r) c) := by
  have hov : (h.lockLog r₀.id).overtaken i = false := by
    refine hcare.send i rfl hi fun he => ?_
    have := congrArg (fun b : Book => b.orders.length) (hx.symm.trans he)
    simp [Book.accept] at this
  have hlog : Run.lockLog r₀.id (.step h (.call i (.api (.sendChildOrder req)) r) c) = h.lockLog r₀.id := rfl
  obtain ⟨trade, htrade, hpos, hroom⟩ := hb.room hi hov (hv.closing_allowed hs hi)
  have hm : c.world.exchange.reach (closingOrder actors r₀.id) =
      req.size + h.world.exchange.reach (closingOrder actors r₀.id) := by
    rw [hx, Book.reach_accept]
    simp [closingOrder, hi, hpos]
  have hst : c.world.exchange.reach (protectiveStop r₀) = h.world.exchange.reach (protectiveStop r₀) := by
    rw [hx, Book.reach_accept]
    simp [protectiveStop]
  have hdone : Run.closePhase (.step h (.call i (.api (.sendChildOrder req)) r) c) i = .done := by
    rw [Run.closePhase_call]
    cases h.closePhase i <;> rfl
  refine ⟨?_, fun id hid => ?_, ?_, fun j hj => ?_, fun j hj => ?_, fun j hj hoj => ?_⟩
  · obtain ⟨u, hu, ht, -⟩ := hb.row
    refine ⟨u, by rw [History.world_step, hdb]; exact hu, ht, fun hopen => ?_⟩
    obtain ⟨-, v, hv', hsv⟩ := hcust.owned i ⟨hi, trade, hv.holds hi htrade⟩ hov
    cases Option.some.inj (hu.symm.trans hv')
    rcases hsv with hsv | ⟨hsv, -⟩ <;> rw [hopen] at hsv <;> cases hsv
  · obtain ⟨o, ho, hk⟩ := hb.stop id hid
    exact ⟨o, by rw [History.world_step, hx]; exact List.mem_cons_of_mem _ ho, hk⟩
  · rw [History.world_step, hm, hst]
    exact hroom
  · by_cases hji : j = i
    · rw [hji, hdone]
      exact fun _ ht => by cases ht
    · rw [Run.closePhase_call_ne _ _ hji]
      exact hb.terms j hj
  · by_cases hji : j = i
    · rw [hji, hdone]
      exact fun ht => by cases ht
    · rw [Run.closePhase_call_ne _ _ hji, Run.accounted_call_ne _ _ hji]
      exact hb.fresh j hj
  · rw [hlog] at hoj
    by_cases hji : j = i
    · rw [hji, hdone]
      trivial
    · rw [Run.closePhase_call_ne _ _ hji]
      cases htj : (h.closePhase j).trade? with
      | none => exact ClosePhase.fits_of_none htj
      | some u => exact absurd (hcust.unique hv hj hi htj htrade hoj hov) hji

/-- The orders are as they were. -/
theorem Book.Moves.of_eq {b b' : Book} (h : b' = b) : b.Moves b' := by
  rw [h]
  exact List.forall₂_same.mpr fun o _ => .refl o

/-- A step that keeps the orders, the lock and the phases. -/
theorem Bounded.still (hb : Bounded actors r₀ h)
    (hrow : c.world.db.trades.find? r₀.id = h.world.db.trades.find? r₀.id) (hl : quietStep l)
    (hnone : positionsRead l = none)
    (hmoves : h.world.exchange.Moves c.world.exchange) (hphase : Run.closePhase (.step h l c) = h.closePhase) :
    Bounded actors r₀ (.step h l c) := by
  have hlog : Run.lockLog r₀.id (.step h l c) = h.lockLog r₀.id := by
    rw [Run.lockLog_step, LockLog.after, acquisition_quiet hl]
  refine hb.calm hrow hlog (.inl hmoves) fun i hi => ?_
  rw [hphase, Run.accounted_of_none hnone]
  exact ⟨fun _ ht => ht, hb.fresh i hi, fun hov hm hs => (hb.size i hi hov).mono hm hs⟩

/-- A query of a task. -/
theorem Bounded.db {q : Query} {r : Except Error q.Ok} (hb : Bounded actors r₀ h) (hv : h.Of bookModel w₀ actors)
    (hs : Step (worldSys bookModel) h.last (.call i (.db q) r) c) (hx : c.world.exchange = h.world.exchange)
    (hrow : ∃ u, c.world.db.trades.find? r₀.id = some u ∧ u.terms = r₀.terms ∧
      (u.status = .open → h.world.exchange.reach (closingOrder actors r₀.id) ≤ 0))
    (hlock : ∀ lock, acquisition r₀.id (.call i (.db q) r) = some (i, lock) →
      lock.trade.stopOrderId = r₀.stopOrderId ∧ (lock.wasStaleRecovery = false → 0 ≤ r₀.quantity ∧
        lock.trade.quantity = r₀.quantity ∧ h.world.exchange.reach (closingOrder actors r₀.id) ≤ 0)) :
    Bounded actors r₀ (.step h (.call i (.db q) r) c) := by
  have hq := hv.mayAsk hs
  refine ⟨?_, ?_, ?_, fun j hj trade ht => ?_, fun j hj hidle => ?_, fun j hj hov => ?_⟩
  · rw [History.world_step, hx]
    exact hrow
  · rw [History.world_step, hx]
    exact hb.stop
  · rw [History.world_step, hx]
    exact hb.total
  · by_cases hji : j = i
    · subst hji
      rw [Run.closePhase_call] at ht
      rcases Run.closing_query hj hq (hv.closing_allowed hs hj) j r with ⟨-, lock, hlk, hn, -⟩ | ⟨hn, -⟩
      · rw [hn, ClosePhase.trade?_afterLock] at ht
        rw [← Option.some.inj ht]
        exact (hlock lock hlk).1
      · rw [hn] at ht
        cases ht
    · rw [Run.closePhase_call_ne _ _ hji] at ht
      exact hb.terms j hj trade ht
  · rw [Run.accounted_of_none rfl]
    by_cases hji : j = i
    · subst hji
      rw [Run.closePhase_call] at hidle
      exact hb.fresh j hj (closing_next_idle hidle)
    · rw [Run.closePhase_call_ne _ _ hji] at hidle
      exact hb.fresh j hj hidle
  · rw [History.world_step, hx, Run.accounted_of_none rfl]
    by_cases hji : j = i
    · subst hji
      rw [Run.closePhase_call]
      rcases Run.closing_query hj hq (hv.closing_allowed hs hj) j r with ⟨hidle, lock, hlk, hn, -⟩ | ⟨hn, -⟩
      · rw [hn, ClosePhase.afterLock]
        split
        · trivial
        · rename_i hstale
          obtain ⟨hpos, hquantity, hzero⟩ := (hlock lock hlk).2 (by simpa using hstale)
          refine ⟨hquantity ▸ hpos, ?_⟩
          rw [hb.fresh j hj hidle, hquantity]
          linarith
      · exact ClosePhase.fits_of_none hn
    · rw [Run.closePhase_call_ne _ _ hji]
      refine hb.size j hj ?_
      rw [Run.lockLog_step, LockLog.after] at hov
      cases hacq : acquisition r₀.id (.call i (.db q) r) with
      | none => rwa [hacq] at hov
      | some p =>
        rw [hacq] at hov
        by_cases hjp : j = p.1
        · exact absurd (hjp.trans (acquisition_fst hacq)) hji
        · exact (Bool.or_eq_false_iff.mp ((LockLog.take_overtaken_ne hjp).symm.trans hov)).1

theorem Bounded.query {q : Query} {a : q.Ok} (hb : Bounded actors r₀ h) (hpos : 0 ≤ r₀.quantity)
    (hv : h.Of bookModel w₀ actors) (hs : Step (worldSys bookModel) h.last (.call i (.db q) (.ok a)) c)
    (hx : c.world.exchange = h.world.exchange) (hw : q.wrote h.world.now h.world.db a c.world.db)
    (hcare : Careful actors r₀ h (.call i (.db q) (.ok a)) c) :
    Bounded actors r₀ (.step h (.call i (.db q) (.ok a)) c) := by
  obtain ⟨u, hu, hterms, hopen⟩ := hb.row
  refine hb.db hv hs hx ?_ fun lock hlock => ?_
  · obtain ⟨v, hv', hrow⟩ := Query.wrote_row hw hu
    refine ⟨v, hv', hrow.terms.trans hterms, fun ho => ?_⟩
    have hid : u.id = r₀.id := Db.trade_id hu
    cases hrow with
    | same => exact hopen ho
    | lock => cases ho
    | reopen hc => exact hcare.release i (by rw [hid]; exact if_pos rfl) ⟨u, hu, hc⟩
    | settle => cases ho
    | charge => exact hopen ho
  · obtain ⟨-, accountId, -, hrow⟩ := acquisition_ok hlock
    obtain ⟨r, hr, hl, rfl, -⟩ := hrow hw
    cases Option.some.inj (hu.symm.trans hr)
    have hstop : u.stopOrderId = r₀.stopOrderId := Trade.stopOrderId_eq hterms
    have hquantity : u.quantity = r₀.quantity := Trade.quantity_eq hterms
    refine ⟨hstop, fun hstale => ⟨hpos, hquantity, hopen ?_⟩⟩
    rcases TradeRow.lockable_status hl with ho | ⟨-, t, ht, -⟩
    · exact ho
    · rw [show
        (⟨(u.startClosing h.world.now).toTrade, u.closingStartedAt.isSome⟩ : CloseLockAcquired).wasStaleRecovery =
        u.closingStartedAt.isSome from rfl, ht] at hstale
      cases hstale

/-- One careful step. -/
theorem Bounded.step (hb : Bounded actors r₀ h) (hpos : 0 ≤ r₀.quantity) (hv : h.Of bookModel w₀ actors)
    (hs : Step (worldSys bookModel) h.last l c) (hcust : Custody actors r₀.id h) (hcare : Careful actors r₀ h l c) :
    Bounded actors r₀ (.step h l c) := by
  rcases Run.exchange_cases hs with ⟨i, q, r, rfl, hresp, hdb⟩ | ⟨rfl, hmove, hdb⟩ | ⟨hx, hnapi⟩
  · rcases Book.respond_cases hresp with hm | ⟨req, rfl, hacc⟩ | hplace
    · exact hb.api hv hs hcare hdb (.inl hm)
    · by_cases hi : (actors i).closes r₀.id
      · exact hb.accept hv hs hcust hcare hi hdb hacc
      · exact hb.api hv hs hcare hdb (.inr (.inl ⟨i, req, hi, hacc⟩))
    · exact hb.api hv hs hcare hdb (.inr (.inr hplace))
  · exact hb.still (by rw [hdb]) trivial rfl hmove rfl
  · have hmoves := Book.Moves.of_eq hx
    rcases Run.Of.step_cases hv hs with ⟨i, q, a, rfl, -, hw, -⟩ | ⟨i, q, e, rfl, -, hw⟩ | ⟨j, lev, rfl, hw⟩ |
      ⟨hw, -, hquiet, -⟩
    · exact hb.query hpos hv hs hx hw hcare
    · obtain ⟨u, hu, hrow⟩ := hb.row
      refine hb.db hv hs hx ⟨u, by rw [hw]; exact hu, hrow⟩ fun lock hlock => ?_
      rw [acquisition_error] at hlock
      cases hlock
    · exact hb.still (by rw [hw, setLeverage_trades]) trivial rfl hmoves rfl
    · cases l with
      | move m => exact hb.still (by rw [hw]) trivial rfl hmoves rfl
      | call i q r =>
        have hreads : Call.reads q := by
          cases q with
          | db q => exact hquiet
          | api q => exact absurd rfl hnapi
          | _ => trivial
        refine hb.still (by rw [hw]) hquiet ?_ hmoves (funext fun j => ?_)
        · cases q <;> first | rfl | exact absurd rfl hnapi
        · by_cases hji : j = i
          · rw [hji, Run.closePhase_call, (closing_reads q hreads).2]
          · exact Run.closePhase_call_ne _ _ hji

theorem Run.Of.bounded {h : Run Book} (hv : h.Of bookModel w₀ actors)
    (h₀ : Bounded actors r₀ (.start (begin w₀ actors)))
    (hpos : 0 ≤ r₀.quantity) (hcare : h.Steps (Careful actors r₀)) : Bounded actors r₀ h := by
  refine (History.Valid.invariant (J := fun h => Custody actors r₀.id h ∧ Bounded actors r₀ h) ?_
    (fun h l c hv _ ih hs hcare => ?_) hv hcare).2
  · exact ⟨Run.Of.custody (E := bookModel) rfl trivial, h₀⟩
  · exact ⟨ih.1.step hv hs hcare.late, ih.2.step hpos hv hs ih.1 hcare⟩

end

/-! ## The runs of a trade -/

/-- Where the runs start: the trade is open, no close attempt has sent an order for it, and its stop order
is at the exchange in the size of the trade. -/
structure Protected (actors : Nat → Actor) (r₀ : TradeRow) (w₀ : World Book) : Prop where
  row : w₀.db.trades.find? r₀.id = some r₀
  quantity : 0 ≤ r₀.quantity
  market : ∀ o ∈ w₀.exchange.orders, closingOrder actors r₀.id o.kind = false
  stop : ∀ id ∈ r₀.stopOrderId, ∃ o ∈ w₀.exchange.orders, o.kind = .stop id
  size : w₀.exchange.reach (protectiveStop r₀) ≤ r₀.quantity

theorem Protected.bounded (h₀ : Protected actors r₀ w₀) : Bounded actors r₀ (.start (begin w₀ actors)) := by
  have hzero : w₀.exchange.reach (closingOrder actors r₀.id) = 0 := by
    have hnil : (w₀.exchange.orders.filter fun o => closingOrder actors r₀.id o.kind) = [] :=
      List.filter_eq_nil_iff.mpr fun o ho => by simp [h₀.market o ho]
    simp [Book.reach, hnil]
  refine ⟨⟨r₀, h₀.row, rfl, fun _ => hzero.le⟩, h₀.stop, ?_, fun i _ trade ht => (by cases ht), fun _ _ _ => rfl,
    fun _ _ _ => trivial⟩
  have := h₀.size
  simp only [History.world_start, begin, hzero]
  linarith

/-- In every run of any tasks whose steps are careful: what the market orders of the close attempts on the
trade and its stop order have executed, and even what they may still execute, is within its quantity. -/
theorem never_over_closes (h₀ : Protected actors r₀ w₀) {h : Run Book} (hv : h.Of bookModel w₀ actors)
    (hcare : h.Steps (Careful actors r₀)) :
    h.world.exchange.executed (closingOrder actors r₀.id) + h.world.exchange.executed (protectiveStop r₀) ≤
        r₀.quantity ∧
      h.world.exchange.reach (closingOrder actors r₀.id) + h.world.exchange.reach (protectiveStop r₀) ≤
        r₀.quantity := by
  have htotal := (hv.bounded h₀.bounded h₀.quantity hcare).total
  have hm := Book.executed_le_reach (closingOrder actors r₀.id) h.world.exchange
  have hs := Book.executed_le_reach (protectiveStop r₀) h.world.exchange
  exact ⟨by linarith, htotal⟩

/-! ## An order that is sent twice -/

/-- The stop order of the sample trade. -/
def sampleBook : Book := ⟨[⟨.stop "stop", 2, 0, true⟩]⟩

/-- Every order that is working is filled. -/
def Book.fill (b : Book) : Book := ⟨b.orders.map fun o => if o.working then { o with executed := o.size } else o⟩

/-- An attempt on the sample sends its order, which is accepted, and begins one pass of polling. -/
def sampleOrder (i : Nat) : List (Cue Book) :=
  [.answer i (.sent (.ok "accepted")) fun b => b.accept i (Trader.closeOrderRequest sampleTrade.toTrade 2),
    .passes i 1]

theorem sampleProtected : Protected sampleClosers sampleTrade ⟨sampleOpenDb, sampleBook, 0⟩ where
  row := by decide +kernel
  quantity := by decide +kernel
  market := by decide +kernel
  stop := by decide +kernel
  size := by decide +kernel

/-- The order of the first attempt is accepted and not filled before the timeout, so the lock is released;
the second attempt sends the whole quantity again, and both orders are filled. -/
def sampleOverClose : Run Book :=
  .play bookModel ⟨sampleOpenDb, sampleBook, 0⟩ sampleClosers <|
    [.commit 0, .reply 0 (.sfd (.ok 0)), .reply 0 (.stopStatus (.ok .active)),
      .answer 0 (.canceled (.ok ())) fun b => b.cancelStop "stop"] ++ sampleOrder 0 ++
    [.reply 0 (.executions (.ok [])), .commit 0,
      .commit 1, .reply 1 (.sfd (.ok 0)), .reply 1 (.stopStatus (.ok .gone))] ++ sampleOrder 1 ++
    [.exchange Book.fill]

/-- Both orders were filled: twice the quantity of the trade is closed. -/
theorem sampleOverClose_exceeds :
    sampleOverClose.Of bookModel ⟨sampleOpenDb, sampleBook, 0⟩ sampleClosers ∧
      ¬ sampleOverClose.world.exchange.executed (closingOrder sampleClosers 7) +
        sampleOverClose.world.exchange.executed (protectiveStop sampleTrade) ≤ sampleTrade.quantity :=
  ⟨Run.play_of _ _ _ _, by decide +kernel⟩

/-- A first attempt whose order is filled and reported in time, and a second one that comes too late. -/
def sampleClose : Run Book :=
  .play bookModel ⟨sampleOpenDb, sampleBook, 0⟩ sampleClosers <|
    [.commit 0, .commit 1, .reply 0 (.sfd (.ok 0)), .reply 0 (.stopStatus (.ok .active)),
      .answer 0 (.canceled (.ok ())) fun b => b.cancelStop "stop"] ++ sampleOrder 0 ++
    [.exchange Book.fill, .reply 0 (.executions (.ok [⟨110, 2, 0⟩])), .clock 0, .commit 0]

theorem sampleClose_within :
    sampleClose.world.exchange.executed (closingOrder sampleClosers 7) +
      sampleClose.world.exchange.executed (protectiveStop sampleTrade) ≤ 2 :=
  (never_over_closes sampleProtected (Run.play_of _ _ _ _) (by decide +kernel)).1

end AutoTrader
