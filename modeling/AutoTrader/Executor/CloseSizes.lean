import AutoTrader.Executor.CloseOrders
import AutoTrader.Executor.Reads

/-!
# The size of a close order

A close attempt sends its order for the whole quantity of the trade after a fresh lock, and for what the
positions leave of it after a stale one. `Of.sent_size` says so of the orders in a run: the size of a close
order is the quantity of the trade less what the attempt took to be closed already.
-/

namespace AutoTrader

open Lib (Config History Label Step)

/-- What a stale recovery takes to be closed of the trade already, by the positions it read. -/
def foundClosed (trade : Trade) (positions : List ExchangePosition) : Decimal :=
  match recoverySize trade positions with
  | some size => trade.quantity - size
  | none => 0

/-- The size an attempt is set on, when it takes `already` to be closed. -/
def ClosePhase.SizedBy (already : Decimal) : ClosePhase → Prop
  | .idle | .recovering _ => already = 0
  | .sized trade size | .ready trade size => size = trade.quantity - already
  | .done => True

theorem ClosePhase.sizedBy_afterLock (lock : CloseLockAcquired) : (afterLock lock).SizedBy 0 := by
  rw [afterLock]
  split
  · exact rfl
  · exact (sub_zero _).symm

theorem ClosePhase.sizedBy_afterPositions (trade : Trade) (positions : List ExchangePosition) :
    (afterPositions trade positions).SizedBy (foundClosed trade positions) := by
  rw [afterPositions, foundClosed]
  cases recoverySize trade positions with
  | none => exact rfl
  | some size => exact (sub_sub_cancel _ _).symm

namespace Run

variable {ε : Type} {E : ExchangeModel ε} {actors : Nat → Actor} {w₀ : World ε} {h : Run ε} {l : Label Calls Move}
  {c : Config Calls (World ε) (Except Error Outcome)} {uuid : Uuid} {i : Nat}

/-- What attempt `i` takes to be closed of its trade already: nothing, until it reads the positions. -/
def alreadyClosed : Run ε → Nat → Decimal
  | .start _, _ => 0
  | .step h l _, i => match (closePhase h i).recovering?, positionsRead l with
    | some trade, some (j, positions) => if j = i then foundClosed trade positions else alreadyClosed h i
    | _, _ => alreadyClosed h i

/-- Only an attempt that reads the positions takes more to be closed. -/
theorem alreadyClosed_keep (hl : ∀ positions, positionsRead l = some (i, positions) →
    (h.closePhase i).recovering? = none) : alreadyClosed (.step h l c) i = h.alreadyClosed i := by
  rw [alreadyClosed]
  split
  · rename_i trade j positions ht hp
    refine if_neg fun hj => ?_
    subst hj
    rw [hl positions hp] at ht
    cases ht
  · rfl

theorem positionsRead_ne {j : Nat} {q : Calls.Call} {r : Calls.Ret q} (hij : i ≠ j)
    (positions : List ExchangePosition) : positionsRead (.call j q r) ≠ some (i, positions) := by
  unfold positionsRead
  split
  · rename_i he
    cases he
    exact fun hp => hij (congrArg Prod.fst (Option.some.inj hp)).symm
  · exact nofun

/-- A call of the attempt keeps it set on what is left of the trade. -/
theorem sizedBy_call {q : Calls.Call} {r : Calls.Ret q} (hp : (h.closePhase i).SizedBy (h.alreadyClosed i)) :
    (closePhase (.step h (.call i q r) c) i).SizedBy (alreadyClosed (.step h (.call i q r) c) i) := by
  rw [closePhase_call]
  rcases closing_next_cases (h.closePhase i) q r i with
    ⟨hn, hkeep⟩ | hn | ⟨hidle, lock, hn⟩ | ⟨trade, positions, hrec, hread, hn⟩ | ⟨trade, size, hsized, hn⟩
  · rw [hn, alreadyClosed_keep hkeep]
    exact hp
  · rw [hn]
    trivial
  · rw [hn, alreadyClosed_keep fun _ _ => by rw [hidle]; rfl]
    rw [hidle] at hp
    rw [show h.alreadyClosed i = 0 from hp]
    exact ClosePhase.sizedBy_afterLock lock
  · rw [hn]
    have halready : alreadyClosed (.step h (.call i q r) c) i = foundClosed trade positions := by
      simp only [alreadyClosed, hrec, hread, ClosePhase.recovering?, if_true]
    rw [halready]
    exact ClosePhase.sizedBy_afterPositions trade positions
  · rw [hn, alreadyClosed_keep fun _ _ => by rw [hsized]; rfl]
    rw [hsized] at hp
    exact hp

/-- A close attempt that has a size to send is set on what is left of its trade. -/
theorem Of.sizedBy (hi : (actors i).closes uuid) : ∀ {h : Run ε}, h.Of E w₀ actors →
    (h.closePhase i).SizedBy (h.alreadyClosed i)
  | .start _, _ => rfl
  | .step h (.move m) c, hv => by
    rw [alreadyClosed_keep fun _ he => by cases he]
    exact Of.sizedBy hi (h := h) hv.1
  | .step h (.call j q r) c, hv => by
    have ih := Of.sizedBy hi hv.1
    by_cases hij : i = j
    · subst hij
      exact sizedBy_call ih
    · rw [closePhase_call_ne _ _ hij, alreadyClosed_keep fun p hp => absurd hp (positionsRead_ne hij p)]
      exact ih

/-- A close order is sent for the trade that the attempt holds, less what it takes to be closed already. -/
theorem Of.sent_size (hv : h.Of E w₀ actors) (hi : (actors i).closes uuid) {req : SendChildOrderRequest}
    {r : Except ApiError String} (hs : Step (worldSys E) h.last (.call i (.api (.sendChildOrder req)) r) c) :
    ∃ trade, h.stage actors i = .holding trade ∧
      req = Trader.closeOrderRequest trade (trade.quantity - h.alreadyClosed i) := by
  have hallowed := hv.closing_allowed hs hi
  have hsized := Of.sizedBy hi hv
  have hholds : ∀ trade, (h.closePhase i).trade? = some trade → h.stage actors i = .holding trade :=
    fun trade => Of.holds hi hv
  generalize h.closePhase i = p at hallowed hsized hholds
  cases p with
  | sized trade size => exact ⟨trade, hholds trade rfl, hsized ▸ hallowed.2⟩
  | ready trade size => exact ⟨trade, hholds trade rfl, hsized ▸ hallowed⟩
  | _ => exact hallowed.elim

end Run

end AutoTrader
