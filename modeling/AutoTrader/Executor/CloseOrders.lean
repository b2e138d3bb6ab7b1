import AutoTrader.Executor.CloseLock

/-!
# The order of a close attempt

What a close attempt does at the exchange before it sends its order: after a fresh lock it is set on the
whole quantity of the trade, after a stale one on what it reads off the positions (`recoverySize`); then
it makes sure of the stop order; and it sends one order of that size, at most once. The protocol
`closing` says so, and `closePosition_closing` that every close attempt keeps to it.
-/

namespace AutoTrader

open Lib (Config History Label Prog Protocol Step)
open Lib.Prog (Meets MeetsE Only OnlyE.bind)

/-- The size a stale recovery closes, when it closes by an order. -/
def recoverySize (trade : Trade) (positions : List ExchangePosition) : Option Decimal :=
  match Trader.sumPositions trade (positions.filter fun p => p.productCode == trade.pair && decide (0 < p.size))
      (0, false) with
  | .ok (total, true) => if total ≤ trade.quantity then some total else none
  | _ => none

/-- How far a close attempt is with its order. -/
inductive ClosePhase where
  | idle
  /-- It took over a stale lock and does not know the size yet. -/
  | recovering (trade : Trade)
  | sized (trade : Trade) (size : Decimal)
  /-- It made sure of the stop order. -/
  | ready (trade : Trade) (size : Decimal)
  | done

/-- The trade an attempt closes, until it has sent its order or given up. -/
def ClosePhase.trade? : ClosePhase → Option Trade
  | .recovering trade | .sized trade _ | .ready trade _ => some trade
  | .idle | .done => none

/-- The trade of an attempt that took over a stale lock and does not know the size yet. -/
def ClosePhase.recovering? : ClosePhase → Option Trade
  | .recovering trade => some trade
  | _ => none

/-- A fresh lock closes the whole quantity; a stale one looks at the positions first. -/
def ClosePhase.afterLock (lock : CloseLockAcquired) : ClosePhase :=
  if lock.wasStaleRecovery then recovering lock.trade else sized lock.trade lock.trade.quantity

/-- The positions say how much of the trade is left. -/
def ClosePhase.afterPositions (trade : Trade) (positions : List ExchangePosition) : ClosePhase :=
  match recoverySize trade positions with
  | some size => sized trade size
  | none => recovering trade

/-- The exchange side of a close attempt. -/
def closing : Protocol Calls ClosePhase where
  allowed
    | .ready trade size, .api (.sendChildOrder req) => req = Trader.closeOrderRequest trade size
    | .sized trade size, .api (.sendChildOrder req) =>
      trade.stopOrderId = none ∧ req = Trader.closeOrderRequest trade size
    | _, .api (.sendChildOrder _) => False
    | .sized trade _, .api (.stopOrderStatus _ id) | .sized trade _, .api (.cancelStopOrder _ id) =>
      trade.stopOrderId = some id
    | _, .api (.stopOrderStatus _ _) | _, .api (.cancelStopOrder _ _) => False
    | .recovering _, .api (.getPositions _) => True
    | _, .api (.getPositions _) => False
    | .idle, .db (.acquireCloseLock _ _) => True
    | _, .db (.acquireCloseLock _ _) => False
    | _, .api (.placeStopOrder _ _ _ _ _) => False
    | _, _ => True
  next
    | .idle, .db (.acquireCloseLock _ _), .ok (some lock) => .afterLock lock
    | .recovering trade, .api (.getPositions _), .ok positions => .afterPositions trade positions
    | .sized trade size, .api (.stopOrderStatus _ _), .ok .gone => .ready trade size
    | .sized trade size, .api (.cancelStopOrder _ _), .ok _ => .ready trade size
    | _, .api (.sendChildOrder _), _ | _, .db (.releaseCloseLock _), _
    | _, .db (.persistClosedTrade _ _ _ _ _ _ _), _ => .done
    | p, _, _ => p

@[simp] theorem ClosePhase.trade?_afterLock (lock : CloseLockAcquired) : (afterLock lock).trade? = some lock.trade := by
  simp only [afterLock]
  split <;> rfl

@[simp] theorem ClosePhase.trade?_afterPositions (trade : Trade) (positions : List ExchangePosition) :
    (afterPositions trade positions).trade? = some trade := by
  simp only [afterPositions]
  split <;> rfl

/-- A call that is no query keeps the trade, or ends the work on it. -/
theorem closing_next_quiet {p : ClosePhase} {c : Call} (hc : c.quiet) (r : c.Ret) :
    (closing.next p c r).trade? = p.trade? ∨ closing.next p c r = .done := by
  cases c with
  | db q => exact hc.elim
  | api c =>
    cases c with
    | sendChildOrder req => exact .inr (by cases p <;> rfl)
    | getPositions pair =>
      cases p with
      | recovering trade =>
        cases r with
        | ok positions => exact .inl (ClosePhase.trade?_afterPositions trade positions)
        | error e => exact .inl rfl
      | _ => exact .inl rfl
    | stopOrderStatus pair id =>
      cases p with
      | sized trade size => rcases r with _ | (_ | _ | _) <;> exact .inl rfl
      | _ => exact .inl rfl
    | cancelStopOrder pair id =>
      cases p with
      | sized trade size => cases r <;> exact .inl rfl
      | _ => exact .inl rfl
    | _ => exact .inl (by cases p <;> rfl)
  | _ => exact .inl (by cases p <;> rfl)

theorem ClosePhase.afterPositions_ne_idle (trade : Trade) (positions : List ExchangePosition) :
    afterPositions trade positions ≠ idle := by
  simp only [afterPositions]
  split <;> nofun

/-- A read of the positions, with the task that made it. -/
def positionsRead : Label Calls Move → Option (Nat × List ExchangePosition)
  | .call i (.api (.getPositions _)) (.ok positions) => some (i, positions)
  | _ => none

/-- How a close attempt can move on. -/
theorem closing_next_cases (p : ClosePhase) (q : Calls.Call) (r : Calls.Ret q) (i : Nat) :
    (closing.next p q r = p ∧
      ∀ positions, positionsRead (.call i q r) = some (i, positions) → p.recovering? = none) ∨
    closing.next p q r = .done ∨
    (p = .idle ∧ ∃ lock, closing.next p q r = .afterLock lock) ∨
    (∃ trade positions, p = .recovering trade ∧ positionsRead (.call i q r) = some (i, positions) ∧
      closing.next p q r = .afterPositions trade positions) ∨
    ∃ trade size, p = .sized trade size ∧ closing.next p q r = .ready trade size := by
  simp only [closing]
  split
  · rename_i lock
    exact .inr (.inr (.inl ⟨rfl, lock, rfl⟩))
  · rename_i trade pair positions
    exact .inr (.inr (.inr (.inl ⟨trade, positions, rfl, rfl, rfl⟩)))
  · rename_i trade size _ _
    exact .inr (.inr (.inr (.inr ⟨trade, size, rfl, rfl⟩)))
  · rename_i trade size _ _ _
    exact .inr (.inr (.inr (.inr ⟨trade, size, rfl, rfl⟩)))
  · exact .inr (.inl rfl)
  · exact .inr (.inl rfl)
  · exact .inr (.inl rfl)
  · rename_i hnone _ _
    refine .inl ⟨rfl, fun positions hread => ?_⟩
    unfold positionsRead at hread
    split at hread
    · rename_i he
      cases he
      cases p with
      | recovering trade => exact (hnone trade _ _ rfl rfl HEq.rfl).elim
      | _ => rfl
    · cases hread

/-- An attempt that has begun does not become idle. -/
theorem closing_next_idle {p : ClosePhase} {c : Call} {r : c.Ret} (h : closing.next p c r = .idle) : p = .idle := by
  rcases closing_next_cases p c r 0 with ⟨hn, -⟩ | hn | ⟨hidle, -⟩ | ⟨_, _, -, -, hn⟩ | ⟨_, _, -, hn⟩
  · exact hn.symm.trans h
  · cases hn.symm.trans h
  · exact hidle
  · exact absurd (hn.symm.trans h) (ClosePhase.afterPositions_ne_idle _ _)
  · cases hn.symm.trans h

@[simp] theorem closing_next_done (q : Calls.Call) (r : Calls.Ret q) : closing.next .done q r = .done := by
  rcases closing_next_cases .done q r 0 with ⟨hn, -⟩ | hn | ⟨he, -⟩ | ⟨_, _, he, -⟩ | ⟨_, _, he, -⟩
  · exact hn
  · exact hn
  all_goals cases he

/-- The sizes that are summed are positive. -/
theorem sumPositions_nonneg {trade : Trade} : ∀ {positions : List ExchangePosition} {acc r : Decimal × Bool},
    (∀ p ∈ positions, 0 < p.size) → 0 ≤ acc.1 → Trader.sumPositions trade positions acc = .ok r → 0 ≤ r.1
  | [], _, _, _, hacc, h => by
    cases h
    exact hacc
  | p :: ps, (total, _), r, hp, hacc, h => by
    simp only [Trader.sumPositions] at h
    split at h
    · split at h
      · refine sumPositions_nonneg (fun q hq => hp q (List.mem_cons_of_mem _ hq)) ?_ h
        exact add_nonneg hacc (hp p List.mem_cons_self).le
      · cases h
    · cases h

theorem recoverySize_nonneg {trade : Trade} {positions : List ExchangePosition} {size : Decimal}
    (h : recoverySize trade positions = some size) : 0 ≤ size := by
  simp only [recoverySize] at h
  split at h
  · rename_i total hsum
    split at h
    · cases h
      refine sumPositions_nonneg (fun p hp => ?_) (le_refl _) hsum
      have := (List.mem_filter.mp hp).2
      simp only [Bool.and_eq_true, decide_eq_true_eq] at this
      exact this.2
    · cases h
  · cases h

theorem closing_reads {p : ClosePhase} (c : Call) (hc : c.reads) :
    closing.allowed p c ∧ ∀ r, closing.next p c r = p := by
  cases c with
  | db q => exact hc.elim
  | api c => cases c <;> first | exact hc.elim | (cases p <;> exact ⟨trivial, fun _ => rfl⟩)
  | _ => cases p <;> exact ⟨trivial, fun _ => rfl⟩

theorem closing_release (p : ClosePhase) {id : Uuid} : closing.allowed p (.db (.releaseCloseLock id)) := by
  cases p <;> trivial

theorem closing_persist (p : ClosePhase) {id : Uuid} {trade : Trade} {margin pnl price : Decimal} {at' : DateTime}
    {reason : ExitReason} : closing.allowed p (.db (.persistClosedTrade id trade margin pnl price at' reason)) := by
  cases p <;> trivial

namespace Trader

variable (t : Trader) (trade : Trade) (size : Decimal)

/-- A part that only looks things up. -/
theorem closing_of_reads {α : Type} {p : ClosePhase} {x : Exec α} (hx : Only Call.reads x.run) :
    MeetsE closing p x (fun q _ => q = p) fun _ _ => True := by
  refine Meets.mono (fun q r hr => ?_) (hx.meets closing_reads)
  cases r with
  | ok a => exact hr
  | error e => trivial

theorem stopGuardBeforeClose_closing :
    MeetsE closing (.sized trade size) (stopGuardBeforeClose trade)
      (fun p fill => fill = none → p = .ready trade size ∨ p = .sized trade size ∧ trade.stopOrderId = none)
      fun _ _ => True := by
  simp only [stopGuardBeforeClose]
  split
  · rename_i stopId hid
    refine meets_api hid fun r => ?_
    rcases r with e | (_ | ⟨price, commission⟩ | _)
    · exact MeetsE.throw trivial
    · refine meets_api hid fun r => ?_
      cases r with
      | ok _ => exact MeetsE.pure fun _ => .inl rfl
      | error e =>
        refine meets_api hid fun r => ?_
        rcases r with e | (_ | ⟨price, commission⟩ | _)
        · exact MeetsE.throw trivial
        · exact MeetsE.throw trivial
        · exact MeetsE.pure fun h => by cases h
        · exact MeetsE.pure fun _ => .inl rfl
    · exact MeetsE.pure fun h => by cases h
    · exact MeetsE.pure fun _ => .inl rfl
  · rename_i hid
    exact MeetsE.pure fun _ => .inr ⟨rfl, Option.eq_none_iff_forall_ne_some.mpr hid⟩

theorem fillCloseLive_closing :
    MeetsE closing (.sized trade size) (t.fillCloseLive trade size) (fun _ _ => True) fun _ _ => True := by
  refine MeetsE.bind ((stopGuardBeforeClose_closing trade size).mono (fun p fill hp => ?_) fun _ _ _ => trivial)
  cases fill with
  | some fill => exact MeetsE.pure trivial
  | none =>
    refine MeetsE.bind ?_
    simp only [ensureClosePositionIdPresent]
    split
    · exact MeetsE.throw trivial
    refine MeetsE.pure (MeetsE.bind (meets_apiOrThrow ?_ (fun acceptanceId => ?_) fun _ => trivial))
    · rcases hp rfl with rfl | ⟨rfl, hid⟩
      · exact rfl
      · exact ⟨hid, rfl⟩
    · exact MeetsE.bind ((closing_of_reads (reads_pollExecutions _ _)).mono (fun _ _ _ => MeetsE.pure trivial)
        fun _ _ _ => trivial)

theorem reads_resolveStaleExitPrice : Only Call.reads (t.resolveStaleExitPrice trade).run :=
  t.only_resolveStaleExitPrice trivial

theorem fillClose_closing {p : ClosePhase} (hp : t.dryRun = false → p = .sized trade trade.quantity) :
    MeetsE closing p (t.fillClose trade) (fun _ _ => True) fun _ _ => True := by
  simp only [fillClose]
  split
  · exact MeetsE.bind ((closing_of_reads (t.reads_latestBidAsk _)).mono (fun _ _ _ => MeetsE.pure trivial)
      fun _ _ _ => trivial)
  · rename_i hd
    rw [hp (by simpa using hd)]
    exact t.fillCloseLive_closing trade trade.quantity

theorem sumExchangePositionSize_closing :
    MeetsE closing (.recovering trade) (sumExchangePositionSize trade)
      (fun p r => r.2 = true → r.1 ≤ trade.quantity → p = .sized trade r.1) fun _ _ => True := by
  refine MeetsE.bind (meets_apiOrThrow trivial (fun positions => ?_) fun _ => trivial)
  dsimp only
  split
  · rename_i r hr
    refine MeetsE.pure fun has hle => ?_
    obtain ⟨total, b⟩ := r
    cases has
    simp only [closing, ClosePhase.afterPositions, recoverySize, hr, if_pos hle]
  · exact MeetsE.throw trivial

theorem fillCloseWithStaleRecovery_closing (hlive : t.dryRun = false) :
    MeetsE closing (.recovering trade) (t.fillCloseWithStaleRecovery trade) (fun _ _ => True) fun _ _ => True := by
  refine MeetsE.bind ((sumExchangePositionSize_closing trade).mono (fun p r hp => ?_) fun _ _ _ => trivial)
  obtain ⟨total, has⟩ := r
  dsimp only at hp ⊢
  cases has with
  | false =>
    exact MeetsE.bind ((closing_of_reads (reads_resolveStaleExitPrice t trade)).mono
      (fun _ _ _ => MeetsE.pure trivial) fun _ _ _ => trivial)
  | true =>
    simp only [Bool.not_true, Bool.false_eq_true, ↓reduceIte]
    split
    · rename_i heq
      rw [hp rfl heq.le, heq]
      exact MeetsE.bind ((t.fillClose_closing trade fun _ => rfl).mono (fun _ _ _ => MeetsE.pure trivial)
        fun _ _ _ => trivial)
    · split
      · rename_i hlt
        rw [hp rfl hlt.le]
        simp only [recoverExitWhenPartialSize, fillCloseSize, hlive]
        exact MeetsE.bind ((t.fillCloseLive_closing trade total).mono (fun _ _ _ => MeetsE.pure trivial)
          fun _ _ _ => trivial)
      · exact MeetsE.throw trivial

theorem closeAndReleaseLockOnError_closing (uuid : Uuid) (lock : CloseLockAcquired) :
    MeetsE closing (.afterLock lock) (t.closeAndReleaseLockOnError uuid lock.trade lock.wasStaleRecovery)
      (fun _ _ => True) fun _ _ => True := by
  have hfill : MeetsE closing (.afterLock lock)
      (if (!t.dryRun && lock.wasStaleRecovery) = true then t.fillCloseWithStaleRecovery lock.trade
        else do
          let fill ← t.fillClose lock.trade
          return (fill.1, fill.2, false)) (fun _ _ => True) fun _ _ => True := by
    split
    · rename_i hs
      simp only [Bool.and_eq_true, Bool.not_eq_eq_eq_not, Bool.not_true] at hs
      rw [ClosePhase.afterLock, if_pos hs.2]
      exact t.fillCloseWithStaleRecovery_closing lock.trade hs.1
    · rename_i hs
      refine MeetsE.bind ((t.fillClose_closing lock.trade fun hlive => ?_).mono (fun _ _ _ => MeetsE.pure trivial)
        fun _ _ _ => trivial)
      have : lock.wasStaleRecovery = false := by simpa [hlive] using hs
      rw [ClosePhase.afterLock, this]
      rfl
  refine MeetsE.bind (MeetsE.attempt (hfill.mono (fun p fill _ => MeetsE.pure trivial) fun p e _ => ?_))
  exact MeetsE.bind (MeetsE.attempt (meets_query (closing_release p) (fun _ => MeetsE.throw trivial)
    fun _ => MeetsE.throw trivial))

/-- A close attempt sends its order only in the size it was set on, after it made sure of the stop. -/
theorem closePosition_closing (uuid : Uuid) (exitReason : ExitReason) :
    Meets closing .idle (t.closePosition uuid exitReason).run fun _ _ => True := by
  refine MeetsE.run (MeetsE.bind (MeetsE.bind (meets_query trivial (fun lock => ?_) fun _ => trivial)))
  cases lock with
  | none => exact MeetsE.throw trivial
  | some lock =>
    refine MeetsE.pure (MeetsE.bindLift_of_only (t.reads_liveSfdSnapshot _) closing_reads fun sfd => ?_)
    refine MeetsE.bind ((t.closeAndReleaseLockOnError_closing uuid lock).mono (fun p fill _ => ?_) fun _ _ _ => trivial)
    refine MeetsE.bindLift_of_only reads_utcNow closing_reads fun exitAt => ?_
    exact MeetsE.bind (meets_query (closing_persist p) (fun _ => MeetsE.pure trivial) fun _ => trivial)

end Trader

/-- Every close attempt keeps to `closing`. -/
theorem Actor.closing {a : Actor} {id : Uuid} (ha : a.closes id) :
    Meets closing .idle a.prog.run fun _ _ => True := by
  cases a with
  | closePosition t uuid exitReason =>
    exact MeetsE.run (MeetsE.map (t.closePosition_closing uuid exitReason |> Meets.mono
      fun _ r _ => by cases r <;> trivial))
  | _ => cases ha

/-! ## Close attempts in a run -/

namespace Run

variable {ε : Type} {E : ExchangeModel ε} {actors : Nat → Actor} {w₀ : World ε} {h : Run ε} {l : Label Calls Move}
  {c : Config Calls (World ε) (Except Error Outcome)} {id : Uuid} {i j : Nat}

/-- How far an attempt is with its order. -/
def closePhase (h : Run ε) (i : Nat) : ClosePhase := h.phases closing (fun _ => .idle) i

/-- In a run, a close attempt makes only the calls that `closing` allows. -/
theorem Of.closing_allowed (hv : h.Of E w₀ actors) {q : Calls.Call} {r : Calls.Ret q}
    (hs : Step (worldSys E) h.last (.call i q r) c) (hi : (actors i).closes id) :
    closing.allowed (h.closePhase i) q :=
  @History.Valid.allowed _ _ _ _ _ _ _ closing (fun _ => .idle) _ i (Actor.closing hi) h hv q r c hs

theorem closePhase_call (q : Calls.Call) (r : Calls.Ret q) :
    closePhase (.step h (.call i q r) c) i = closing.next (h.closePhase i) q r :=
  History.phases_call ..

theorem closePhase_call_ne (q : Calls.Call) (r : Calls.Ret q) (hij : j ≠ i) :
    closePhase (.step h (.call i q r) c) j = h.closePhase j :=
  History.phases_call_ne _ _ _ _ hij

/-- A query of a close attempt takes its lock, or ends its work on the trade. -/
theorem closing_query {a : Actor} {s : Stage} {p : ClosePhase} {q : Query} (hi : a.closes id) (hq : a.MayAsk s q)
    (hallowed : closing.allowed p (.db q)) (i : Nat) (r : Except Error q.Ok) :
    (p = .idle ∧ ∃ lock, acquisition id (.call i (.db q) r) = some (i, lock) ∧
      closing.next p (.db q) r = .afterLock lock ∧ s.after q r = .holding lock.trade) ∨
    (closing.next p (.db q) r).trade? = none ∧ ∀ trade, s.after q r ≠ .holding trade := by
  cases hq with
  | lock =>
    cases p with
    | idle =>
      rcases r with e | _ | lock
      · exact .inr ⟨rfl, fun _ he => Stage.noConfusion he⟩
      · exact .inr ⟨rfl, fun _ he => Stage.noConfusion he⟩
      · exact .inl ⟨rfl, lock, if_pos (of_decide_eq_true hi), rfl, rfl⟩
    | _ => exact hallowed.elim
  | unlock => exact .inr ⟨by cases p <;> rfl, fun _ he => Stage.noConfusion he⟩
  | close =>
    refine .inr ⟨by cases p <;> rfl, fun _ he => ?_⟩
    cases r <;> exact Stage.noConfusion he
  | _ => cases hi

/-- An attempt that has a trade to close is between its lock and its release or persist. -/
theorem Of.holds (hi : (actors i).closes id) : ∀ {h : Run ε}, h.Of E w₀ actors →
    ∀ {trade}, (h.closePhase i).trade? = some trade → h.stage actors i = .holding trade
  | .start _, _, _, ht => by cases ht
  | .step h (.move m) c, hv, _, ht => Of.holds (h := h) hi hv.1 ht
  | .step h (.call j q r) c, hv, trade, ht => by
    by_cases hij : i = j
    · subst hij
      rw [closePhase_call] at ht
      have ih : ∀ trade, (closePhase h i).trade? = some trade → stage actors h i = .holding trade :=
        fun trade => Of.holds hi hv.1
      by_cases hq : Call.quiet q
      · rw [stage_quiet h i q hq]
        rcases closing_next_quiet hq r with hn | hn
        · exact ih trade (hn ▸ ht)
        · rw [hn] at ht
          cases ht
      · cases q with
        | db q =>
          rcases closing_query hi (Of.mayAsk hv.1 hv.2) (Of.closing_allowed hv.1 hv.2 hi) i r with
            ⟨-, lock, -, hn, hst⟩ | ⟨hn, -⟩
          · rw [hn, ClosePhase.trade?_afterLock] at ht
            rw [stage_db, Function.update_self, hst, Option.some.inj ht]
          · rw [hn] at ht
            cases ht
        | _ => exact absurd trivial hq
    · rw [closePhase_call_ne _ _ hij] at ht
      rw [stage_call_ne h _ _ _ hij]
      exact Of.holds hi hv.1 ht

end Run

end AutoTrader
