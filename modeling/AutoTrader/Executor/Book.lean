import AutoTrader.Executor.Play
import Mathlib.Algebra.Order.BigOperators.Group.List
import Mathlib.Data.List.Forall2

/-!
# The orders at the exchange

`bookModel` is an exchange that keeps the orders it has accepted: market orders, each with the task that
sent it, and protective stop orders. What it answers to a question about an order is free, and so is when
an order is filled; only an order that is working executes, and never more than its size. A market order
may be accepted although the answer is an error, and a stop order that was cancelled with success
executes nothing any more.

`Book.executed` sums what the orders of a kind have executed and `Book.reach` what they may come to:
`executed_le_reach`, and nothing but a new order makes the reach larger (`Book.Moves.reach_le`).
-/

namespace AutoTrader

open List (Forall₂)

/-- The kinds of orders. -/
inductive OrderKind where
  /-- A market order sent by a task. -/
  | market (sender : Nat) (req : SendChildOrderRequest)
  | stop (id : String)
  deriving DecidableEq, Repr

/-- An order the exchange has accepted. -/
structure Order where
  kind : OrderKind
  size : Decimal
  executed : Decimal
  /-- Whether it may still execute. -/
  working : Bool
  deriving DecidableEq, Repr

namespace Order

/-- What the order may come to have executed. -/
def reach (o : Order) : Decimal := if o.working then max o.executed o.size else o.executed

/-- What can become of an order. -/
def Moves (o o' : Order) : Prop :=
  o'.kind = o.kind ∧ o'.size = o.size ∧ o.executed ≤ o'.executed ∧ o'.executed ≤ o.reach ∧ (o'.working → o.working)

instance (o o' : Order) : Decidable (o.Moves o') := inferInstanceAs (Decidable (_ ∧ _))

theorem executed_le_reach (o : Order) : o.executed ≤ o.reach := by
  simp only [reach]
  split
  · exact le_max_left ..
  · exact le_refl _

theorem Moves.refl (o : Order) : o.Moves o := ⟨rfl, rfl, le_refl _, o.executed_le_reach, id⟩

theorem Moves.reach_le {o o' : Order} (h : o.Moves o') : o'.reach ≤ o.reach := by
  obtain ⟨-, hs, -, he, hw⟩ := h
  cases hw' : o'.working with
  | false => simpa only [reach, hw', Bool.false_eq_true, ↓reduceIte] using he
  | true =>
    have hsize : o.size ≤ o.reach := by simp [reach, hw hw']
    simp only [reach, hw', ↓reduceIte, hs] at he ⊢
    exact max_le he hsize

end Order

/-- The orders at the exchange, newest first. -/
structure Book where
  orders : List Order
  deriving DecidableEq, Repr

namespace Book

/-- What the orders of a kind have executed. -/
def executed (p : OrderKind → Bool) (b : Book) : Decimal := ((b.orders.filter fun o => p o.kind).map Order.executed).sum

/-- What the orders of a kind may come to have executed. -/
def reach (p : OrderKind → Bool) (b : Book) : Decimal := ((b.orders.filter fun o => p o.kind).map Order.reach).sum

/-- A market order enters the book. -/
def accept (b : Book) (sender : Nat) (req : SendChildOrderRequest) : Book :=
  ⟨⟨.market sender req, req.size, 0, true⟩ :: b.orders⟩

/-- A stop order enters the book. -/
def placeStop (b : Book) (id : String) (size : Decimal) : Book := ⟨⟨.stop id, size, 0, true⟩ :: b.orders⟩

/-- The book in which no order of that stop id is working. -/
def cancelStop (b : Book) (id : String) : Book :=
  ⟨b.orders.map fun o => if o.kind = .stop id then { o with working := false } else o⟩

/-- The orders have moved on their own. -/
def Moves (b b' : Book) : Prop := Forall₂ Order.Moves b.orders b'.orders

instance (b b' : Book) : Decidable (b.Moves b') := inferInstanceAs (Decidable (Forall₂ _ _ _))

/-- What the exchange answers to each call. -/
def respond (i : Nat) (b : Book) (c : ApiCall) (r : c.Ret) (b' : Book) : Prop :=
  match c, r with
  | .sendChildOrder req, .ok _ => b' = b.accept i req
  | .sendChildOrder req, .error _ => b' = b.accept i req ∨ b' = b
  | .placeStopOrder _ _ size _ _, .ok id => (∀ o ∈ b.orders, o.kind ≠ .stop id) ∧ b' = b.placeStop id size
  | .cancelStopOrder _ id, .ok _ => b' = b.cancelStop id
  | _, _ => b' = b

instance (i : Nat) (b : Book) (c : ApiCall) (r : c.Ret) (b' : Book) : Decidable (b.respond i c r b') := by
  unfold respond
  split <;> infer_instance

end Book

/-- An exchange that accepts orders and executes them as it likes. -/
def bookModel : ExchangeModel Book where
  respond := fun i b c r b' => b.respond i c r b'
  move := Book.Moves

instance (i : Nat) (b : Book) (c : ApiCall) (r : c.Ret) (b' : Book) : Decidable (bookModel.respond i b c r b') :=
  inferInstanceAs (Decidable (b.respond i c r b'))

instance (b b' : Book) : Decidable (bookModel.move b b') := inferInstanceAs (Decidable (b.Moves b'))

/-! ## What a kind of orders has executed and may execute -/

namespace Book

variable {b b' : Book} {p : OrderKind → Bool}

theorem executed_le_reach (p : OrderKind → Bool) (b : Book) : b.executed p ≤ b.reach p :=
  List.sum_le_sum fun o _ => o.executed_le_reach

theorem Moves.reach_le (h : b.Moves b') : b'.reach p ≤ b.reach p := by
  obtain ⟨os⟩ := b
  obtain ⟨os'⟩ := b'
  simp only [Moves] at h
  induction h with
  | nil => exact le_refl _
  | @cons o o' os os' ho _ ih =>
    simp only [reach, List.filter_cons, ho.1] at ih ⊢
    split
    · simpa using add_le_add ho.reach_le ih
    · exact ih

theorem cancelStop_moves (b : Book) (id : String) : b.Moves (b.cancelStop id) := by
  simp only [Moves, cancelStop, List.forall₂_map_right_iff]
  refine List.forall₂_same.mpr fun o _ => ?_
  split
  · exact ⟨rfl, rfl, le_refl _, o.executed_le_reach, nofun⟩
  · exact .refl o

theorem reach_accept (b : Book) (i : Nat) (req : SendChildOrderRequest) :
    (b.accept i req).reach p = (if p (.market i req) then max 0 req.size else 0) + b.reach p := by
  simp only [reach, accept, List.filter_cons]
  split <;> simp [Order.reach]

theorem reach_placeStop (b : Book) (id : String) (size : Decimal) :
    (b.placeStop id size).reach p = (if p (.stop id) then max 0 size else 0) + b.reach p := by
  simp only [reach, placeStop, List.filter_cons]
  split <;> simp [Order.reach]

/-- No order comes or goes when the orders move. -/
theorem Moves.kinds (h : b.Moves b') (k : OrderKind) :
    (∃ o ∈ b.orders, o.kind = k) ↔ ∃ o ∈ b'.orders, o.kind = k := by
  obtain ⟨os⟩ := b
  obtain ⟨os'⟩ := b'
  simp only [Moves] at h ⊢
  induction h with
  | nil => rfl
  | cons ho _ ih => simp only [List.exists_mem_cons_iff, ih, ho.1]

/-- What a call can do to the orders. -/
theorem respond_cases {i : Nat} {c : ApiCall} {r : c.Ret} (h : b.respond i c r b') :
    b.Moves b' ∨ (∃ req, c = .sendChildOrder req ∧ b' = b.accept i req) ∨
      ∃ id size, (∀ o ∈ b.orders, o.kind ≠ .stop id) ∧ b' = b.placeStop id size := by
  have same : b' = b → b.Moves b' := by
    rintro rfl
    exact List.forall₂_same.mpr fun o _ => .refl o
  unfold respond at h
  split at h
  · exact .inr (.inl ⟨_, rfl, h⟩)
  · rcases h with h | h
    · exact .inr (.inl ⟨_, rfl, h⟩)
    · exact .inl (same h)
  · exact .inr (.inr ⟨_, _, h⟩)
  · rw [h]
    exact .inl (cancelStop_moves ..)
  · exact .inl (same h)

end Book

end AutoTrader
