import AutoTrader.Executor.CloseSizes
import Mathlib.Algebra.Order.BigOperators.Group.List
import Mathlib.Data.List.Forall2

/-!
# The quantity that is recorded and the quantity that was executed

A live order is polled until `get_executions` answers with executions that have a size, and the trade is
recorded on that answer: an opened trade with its total, a closed trade whatever the total. The code does
not ask whether the order is finished, so an order that is filled in parts is recorded in part
(`samplePartialFills_recorded`). `quantity_exact_iff` says when what is recorded is what was executed. The
answer that ends the polling of an open must hold every execution of its order. What the answer that ends the
polling of a close leaves open of its order must have been executed elsewhere: by the order since, or by other
close orders of the trade. And none of these orders may execute more afterwards.

`fillModel` is an exchange that keeps the executions of the orders it accepted. An answer to
`get_executions` holds the first of them, and may lag behind.
-/

namespace AutoTrader

open Lib (Config History Label Prog Protocol Step)
open Lib.Prog (Meets MeetsE Only)
open List (Forall₂)

/-- The size of a number of executions. -/
def totalSize (execs : List Execution) : Decimal := (execs.map Execution.size).sum

@[simp] theorem totalSize_append (execs execs' : List Execution) :
    totalSize (execs ++ execs') = totalSize execs + totalSize execs' := by
  simp [totalSize]

/-- Executions of positive size that add up to nothing are none. -/
theorem eq_nil_of_totalSize {execs : List Execution} (hpos : ∀ e ∈ execs, 0 < e.size) (h : totalSize execs = 0) :
    execs = [] := by
  cases execs with
  | nil => rfl
  | cons e es =>
    have hes : 0 ≤ totalSize es := List.sum_nonneg fun x hx => by
      obtain ⟨e', he', rfl⟩ := List.mem_map.mp hx
      exact (hpos e' (List.mem_cons_of_mem _ he')).le
    have he := hpos e List.mem_cons_self
    have hsum : totalSize (e :: es) = e.size + totalSize es := by simp [totalSize]
    rw [hsum] at h
    linarith

/-! ## Executions at the exchange -/

/-- An order the exchange has accepted, with its executions in the order they happened. -/
structure FilledOrder where
  id : String
  sender : Nat
  req : SendChildOrderRequest
  fills : List Execution
  deriving DecidableEq, Repr

/-- What can become of an order. -/
def FilledOrder.Moves (o o' : FilledOrder) : Prop :=
  o'.id = o.id ∧ o'.sender = o.sender ∧ o'.req = o.req ∧ o.fills <+: o'.fills ∧
    ∀ e ∈ o'.fills.drop o.fills.length, 0 < e.size

instance FilledOrder.decidableMoves (o o' : FilledOrder) : Decidable (o.Moves o') := inferInstanceAs (Decidable (_ ∧ _))

/-- The orders at the exchange, newest first. -/
structure FillBook where
  orders : List FilledOrder
  deriving DecidableEq, Repr

namespace FillBook

/-- The executions of an order. -/
def fills (b : FillBook) (id : String) : List Execution :=
  match b.orders.find? fun o => o.id = id with
  | some o => o.fills
  | none => []

/-- What the exchange has executed of an order. -/
def executed (b : FillBook) (id : String) : Decimal := totalSize (b.fills id)

/-- What the exchange has executed of an order since the report, which holds its first executions. -/
def since (b : FillBook) (id : String) (report : List Execution) : Decimal :=
  totalSize ((b.fills id).drop report.length)

/-- The size an order was sent with. -/
def sentSize (b : FillBook) (id : String) : Decimal :=
  match b.orders.find? fun o => o.id = id with
  | some o => o.req.size
  | none => 0

/-- What the exchange has executed of the orders that close attempts on the trade sent. -/
def closing (b : FillBook) (actors : Nat → Actor) (id : Uuid) : Decimal :=
  ((b.orders.filter fun o => (actors o.sender).closes id).map fun o => totalSize o.fills).sum

/-- What the exchange has executed of such orders other than `orderId`. -/
def closingBeside (b : FillBook) (actors : Nat → Actor) (id : Uuid) (orderId : String) : Decimal :=
  ((b.orders.filter fun o => (actors o.sender).closes id && o.id != orderId).map fun o => totalSize o.fills).sum

/-- An order enters the book. -/
def accept (b : FillBook) (id : String) (sender : Nat) (req : SendChildOrderRequest) : FillBook :=
  ⟨⟨id, sender, req, []⟩ :: b.orders⟩

/-- No order has the id. -/
def Fresh (b : FillBook) (id : String) : Prop := ∀ o ∈ b.orders, o.id ≠ id

instance (b : FillBook) (id : String) : Decidable (b.Fresh id) := inferInstanceAs (Decidable (∀ o ∈ b.orders, _))

/-- The orders have been executed further. -/
def Moves (b b' : FillBook) : Prop := Forall₂ FilledOrder.Moves b.orders b'.orders

instance (b b' : FillBook) : Decidable (b.Moves b') := inferInstanceAs (Decidable (Forall₂ _ _ _))

/-- What the exchange answers to each call. -/
def respond (i : Nat) (b : FillBook) (c : ApiCall) (r : c.Ret) (b' : FillBook) : Prop :=
  match c, r with
  | .sendChildOrder req, .ok id => b.Fresh id ∧ b' = b.accept id i req
  | .sendChildOrder req, .error _ => (∃ o ∈ b'.orders.head?, b.Fresh o.id ∧ b' = b.accept o.id i req) ∨ b' = b
  | .getExecutions _ id, .ok execs => execs <+: b.fills id ∧ b' = b
  | _, _ => b' = b

instance (i : Nat) (b : FillBook) (c : ApiCall) (r : c.Ret) (b' : FillBook) : Decidable (b.respond i c r b') := by
  induction c using ApiCall.casesOn <;> induction r using Except.casesOn <;> dsimp only [respond] <;> infer_instance

end FillBook

/-- An exchange that executes the orders it accepted in any parts. -/
def fillModel : ExchangeModel FillBook where
  respond := fun i b c r b' => b.respond i c r b'
  move := FillBook.Moves

instance (i : Nat) (b : FillBook) (c : ApiCall) (r : c.Ret) (b' : FillBook) :
    Decidable (fillModel.respond i b c r b') :=
  inferInstanceAs (Decidable (b.respond i c r b'))

instance (b b' : FillBook) : Decidable (fillModel.move b b') := inferInstanceAs (Decidable (b.Moves b'))

namespace FillBook

variable {b b' : FillBook} {id : String}

/-- Every execution has a positive size. -/
def Positive (b : FillBook) : Prop := ∀ o ∈ b.orders, ∀ e ∈ o.fills, 0 < e.size

theorem Positive.fills (h : b.Positive) (id : String) : ∀ e ∈ b.fills id, 0 < e.size := by
  unfold FillBook.fills
  split
  · rename_i o ho
    exact h o (List.mem_of_find?_eq_some ho)
  · exact fun e he => by cases he

theorem Positive.moves (h : b.Positive) (hm : b.Moves b') : b'.Positive := by
  obtain ⟨os⟩ := b
  obtain ⟨os'⟩ := b'
  simp only [Moves] at hm
  simp only [Positive] at h ⊢
  induction hm with
  | nil => exact h
  | @cons o o' os os' ho _ ih =>
    rw [List.forall_mem_cons] at h ⊢
    refine ⟨fun e he => ?_, ih h.2⟩
    obtain ⟨-, -, -, ⟨new, hnew⟩, hpos⟩ := ho
    rw [← hnew, List.drop_left] at hpos
    rw [← hnew] at he
    rcases List.mem_append.mp he with he | he
    · exact h.1 e he
    · exact hpos e he

theorem fills_accept (hf : b.Fresh id) (i : Nat) (req : SendChildOrderRequest) (id' : String) :
    (b.accept id i req).fills id' = b.fills id' := by
  unfold fills accept
  rw [List.find?_cons]
  by_cases hid : id = id'
  · subst hid
    have hnone : (b.orders.find? fun o => o.id = id) = none :=
      List.find?_eq_none.mpr fun o ho => by simpa using hf o ho
    simp [hnone]
  · simp [hid]

theorem Moves.fills (h : b.Moves b') (id : String) : b.fills id <+: b'.fills id := by
  obtain ⟨os⟩ := b
  obtain ⟨os'⟩ := b'
  simp only [Moves] at h
  unfold FillBook.fills
  induction h with
  | nil => exact List.prefix_refl _
  | @cons o o' os os' ho _ ih =>
    simp only [List.find?_cons]
    rw [ho.1]
    by_cases hid : o.id = id
    · simp only [hid, decide_true]
      exact ho.2.2.2.1
    · simp only [hid, decide_false]
      exact ih

/-- The order is the only one with the id. -/
def Sole (b : FillBook) (id : String) (o : FilledOrder) : Prop := b.orders.filter (fun o => o.id = id) = [o]

theorem Fresh.sole (hf : b.Fresh id) (i : Nat) (req : SendChildOrderRequest) :
    (b.accept id i req).Sole id ⟨id, i, req, []⟩ := by
  have hnone : b.orders.filter (fun o => o.id = id) = [] :=
    List.filter_eq_nil_iff.mpr fun o ho => by simpa using hf o ho
  rw [Sole, accept, List.filter_cons_of_pos (by simp), hnone]

section

variable {o : FilledOrder}

theorem Sole.find? (h : b.Sole id o) : (b.orders.find? fun o => o.id = id) = some o := by
  rw [← List.head?_filter, show b.orders.filter (fun o => o.id = id) = [o] from h, List.head?_cons]

theorem Sole.fills (h : b.Sole id o) : b.fills id = o.fills := by
  rw [FillBook.fills, h.find?]

theorem Sole.sentSize (h : b.Sole id o) : b.sentSize id = o.req.size := by
  rw [FillBook.sentSize, h.find?]

theorem Sole.accept {id' : String} (h : b.Sole id o) (hf : b.Fresh id') (i : Nat) (req : SendChildOrderRequest) :
    (b.accept id' i req).Sole id o := by
  have hne : id' ≠ id := by
    rintro rfl
    exact hf o (List.mem_of_find?_eq_some h.find?) (by simpa using List.find?_some h.find?)
  rw [Sole, FillBook.accept, List.filter_cons_of_neg (by simpa using hne)]
  exact h

/-- An order that is executed further has its sender and its request. -/
theorem Sole.moves (h : b.Sole id o) (hm : b.Moves b') :
    ∃ o', b'.Sole id o' ∧ o'.sender = o.sender ∧ o'.req = o.req := by
  have hfilter : ∀ {os os' : List FilledOrder}, Forall₂ FilledOrder.Moves os os' →
      Forall₂ FilledOrder.Moves (os.filter fun o => o.id = id) (os'.filter fun o => o.id = id) := by
    intro os os' hos
    induction hos with
    | nil => exact .nil
    | @cons o o' os os' ho _ ih =>
      rw [List.filter_cons, List.filter_cons, ho.1]
      split
      · exact .cons ho ih
      · exact ih
  have hsole := hfilter hm
  rw [show b.orders.filter (fun o => o.id = id) = [o] from h] at hsole
  generalize hos : b'.orders.filter (fun o => o.id = id) = os at hsole
  cases hsole with
  | @cons _ o' _ _ ho hnil =>
    cases hnil
    exact ⟨o', hos, ho.2.1, ho.2.2.1⟩

/-- What the close orders of a trade have executed, by the one order and the others. -/
theorem Sole.closing {actors : Nat → Actor} {trade : Uuid} (h : b.Sole id o) (hc : (actors o.sender).closes trade) :
    b.closing actors trade = totalSize o.fills + b.closingBeside actors trade id := by
  have hsplit := ((List.filter_append_perm (fun o => o.id == id)
    (b.orders.filter fun o => (actors o.sender).closes trade)).map fun o => totalSize o.fills).sum_eq
  have hown : (b.orders.filter fun o => (actors o.sender).closes trade).filter (fun o => o.id == id) = [o] := by
    rw [List.filter_comm, show b.orders.filter (fun o => o.id == id) = [o] from h, List.filter_singleton, hc, cond_true]
  have hothers : (b.orders.filter fun o => (actors o.sender).closes trade).filter (fun o => !(o.id == id)) =
      b.orders.filter fun o => (actors o.sender).closes trade && o.id != id := by
    rw [List.filter_filter]
    exact List.filter_congr fun o _ => Bool.and_comm _ _
  rw [hown, hothers, List.map_append, List.sum_append, List.map_singleton, List.sum_singleton] at hsplit
  exact hsplit.symm

end

/-- What a call can do to the orders. -/
theorem respond_cases {i : Nat} {c : ApiCall} {r : c.Ret} (h : b.respond i c r b') :
    b' = b ∨ ∃ id req, b.Fresh id ∧ b' = b.accept id i req := by
  unfold respond at h
  split at h
  · exact .inr ⟨_, _, h⟩
  · rcases h with ⟨o, -, h⟩ | h
    · exact .inr ⟨_, _, h⟩
    · exact .inl h
  · exact .inl h.2
  · exact .inl h

end FillBook

/-! ## The polling of an order -/

/-- How far a task is with polling its order. -/
inductive PollPhase where
  | idle
  | sent (id : String)
  /-- It has passes left to begin. -/
  | polling (id : String) (passes : Nat)
  /-- An answer ended the polling. -/
  | accepted (id : String) (report : List Execution)
  /-- The polling failed. -/
  | unpolled

/-- A report is accepted where it can be aggregated. -/
def PollPhase.afterReport (id : String) (passes : Nat) (execs : List Execution) : PollPhase :=
  match aggregateExecutions execs with
  | .ok _ => accepted id execs
  | .error _ => polling id passes

/-- A task that has begun its last pass asks for the executions once more only to reconcile. -/
def PollPhase.afterAnswer (id orderId : String) : Nat → Except ApiError (List Execution) → PollPhase
  | passes + 1, .ok execs => if orderId = id then afterReport id passes execs else polling id (passes + 1)
  | _, _ => unpolled

/-- The polling of an order; a trade that is opened on a report has its total size. -/
def polling : Protocol Calls PollPhase where
  allowed
    | .accepted _ report, .db (.persistOpenTrade _ trade _) => trade.quantity = totalSize report
    | _, _ => True
  next
    | .idle, .api (.sendChildOrder _), .ok id => .sent id
    | .sent id, .pollPasses, passes => .polling id passes
    | .polling id passes, .api (.getExecutions _ orderId), r => .afterAnswer id orderId passes r
    | p, _, _ => p

/-- A call that has nothing to do with polling. -/
def Call.aside : Call → Prop
  | .api (.sendChildOrder _) | .api (.getExecutions _ _) | .pollPasses | .db (.persistOpenTrade _ _ _) => False
  | _ => True

theorem polling_aside (p : PollPhase) (c : Call) (hc : c.aside) :
    polling.allowed p c ∧ ∀ r, polling.next p c r = p := by
  cases c with
  | db q => cases q <;> first | exact hc.elim | (cases p <;> exact ⟨trivial, fun _ => rfl⟩)
  | api c => cases c <;> first | exact hc.elim | (cases p <;> exact ⟨trivial, fun _ => rfl⟩)
  | pollPasses => exact hc.elim
  | _ => cases p <;> exact ⟨trivial, fun _ => rfl⟩

theorem polling_unpolled (c : Call) (_ : c.quiet) :
    polling.allowed .unpolled c ∧ ∀ r, polling.next .unpolled c r = .unpolled :=
  ⟨trivial, fun _ => rfl⟩

/-- What an open may be filled with in a phase. -/
def PollPhase.Fills (size : Decimal) : PollPhase → Prop
  | .accepted _ report => size = totalSize report
  | _ => True

namespace Trader

variable (t : Trader)

theorem pollExecutionsLoop_polling (orderId : String) (pair : Pair) :
    ∀ n, MeetsE polling (.polling orderId n) (pollExecutionsLoop orderId pair n)
      (fun p fill => p.Fills fill.2.1) fun p _ => p = .unpolled ∨ p = .polling orderId 0
  | 0 => MeetsE.throw (.inr rfl)
  | n + 1 => by
    refine MeetsE.bind (meets_apiOrThrow trivial (fun execs => ?_) fun e => .inl rfl)
    have hnext : polling.next (.polling orderId (n + 1)) (.api (.getExecutions pair orderId)) (.ok execs) =
        .afterReport orderId n execs := if_pos rfl
    rw [hnext]
    split
    · rename_i hempty
      rw [List.isEmpty_iff.mp hempty]
      exact pollExecutionsLoop_polling orderId pair n
    · split
      · rename_i fill hfill
        refine MeetsE.pure ?_
        simp only [PollPhase.afterReport, hfill]
        exact (aggregateExecutions_totals hfill).1
      · rename_i e hfill
        simp only [PollPhase.afterReport, hfill]
        exact pollExecutionsLoop_polling orderId pair n

theorem fillOpenLive_polling (signal : Signal) (quantity : Decimal) :
    MeetsE polling .idle (fillOpenLive signal quantity) (fun p fill => p.Fills fill.2.1) fun _ _ => True := by
  refine MeetsE.bind (meets_apiOrThrow trivial (fun orderId => ?_) fun _ => trivial)
  have hpoll : MeetsE polling (.sent orderId) (pollExecutions orderId signal.pair)
      (fun p fill => p.Fills fill.2.1) fun p _ => p = .unpolled ∨ p = .polling orderId 0 :=
    MeetsE.bindLift ⟨trivial, fun n => pollExecutionsLoop_polling orderId signal.pair n⟩
  refine MeetsE.bind (MeetsE.attempt (hpoll.mono (fun p fill hf => MeetsE.pure hf) fun p pollErr hp => ?_))
  -- The reconciliation asks for the executions once more, which is no polling.
  have hcall : ∀ r, polling.next p (.api (.getExecutions signal.pair orderId)) r = .unpolled := by
    intro r
    rcases hp with rfl | rfl <;> rfl
  have hallowed : polling.allowed p (.api (.getExecutions signal.pair orderId)) := by
    rcases hp with rfl | rfl <;> trivial
  have hquiet := quiet_reconcileUnpolledOpen signal orderId pollErr
  refine meets_api hallowed fun r => ?_
  rw [hcall r]
  exact MeetsE.of_only (hquiet.2 r) polling_unpolled (fun _ => trivial) fun _ => trivial

theorem fillOpen_polling (signal : Signal) (quantity : Decimal) :
    MeetsE polling .idle (t.fillOpen signal quantity) (fun p fill => p.Fills fill.2.1) fun _ _ => True := by
  simp only [fillOpen]
  split
  · have tick : Only Call.aside (t.latestBidAsk signal.pair).run := t.only_latestBidAsk trivial
    refine MeetsE.bind (MeetsE.of_only tick (polling_aside _) (fun tick => ?_) fun _ => trivial)
    exact MeetsE.pure trivial
  · exact fillOpenLive_polling signal quantity

theorem prepareEntry_polling (signal : Signal) :
    MeetsE polling .idle (t.prepareEntry signal) (fun p _ => p = .idle) fun _ _ => True := by
  have hentry : Only Call.aside (t.prepareEntry signal).run := t.only_prepareEntry trivial trivial trivial
  exact MeetsE.of_only hentry (polling_aside .idle) (fun _ => rfl) fun _ => trivial

/-- A trade that is opened on a report has its total size. -/
theorem execute_polling (signal : Signal) :
    Meets polling .idle (t.execute signal).run fun _ _ => True := by
  refine MeetsE.run (MeetsE.bind ((t.prepareEntry_polling signal).mono (fun p entry hp => ?_) fun _ _ _ => trivial))
  subst hp
  refine MeetsE.bind ((t.fillOpen_polling signal _).mono (fun p fill hf => ?_) fun _ _ _ => trivial)
  have now : Only Call.aside utcNow := Only.perform (I := Calls) trivial
  refine MeetsE.bindLift_of_only now (polling_aside p) fun entryAt => ?_
  refine MeetsE.bindLift_of_only (t.only_resolveExchangePositionId trivial) (polling_aside p) fun pid => ?_
  refine MeetsE.bindLift_of_only (t.only_placeProtectiveStopOrder fun _ _ => trivial) (polling_aside p) fun stop => ?_
  have uuid : Only Call.aside newUuid := Only.perform (I := Calls) trivial
  refine MeetsE.bindLift_of_only uuid (polling_aside p) fun id => ?_
  refine MeetsE.bind (meets_query ?_ (fun _ => MeetsE.pure trivial) fun _ => trivial)
  cases p with
  | accepted orderId report => exact hf
  | _ => trivial

end Trader

/-! ## What is recorded -/

/-- What a task recorded after its polling. -/
inductive Recorded where
  /-- A trade that was opened on the report of an order. -/
  | opened (orderId : String) (report : List Execution) (quantity : Decimal)
  /-- A trade that was closed on the report of an order, by an attempt that took `already` to be closed. -/
  | closed (orderId : String) (report : List Execution) (already : Decimal) (trade : Uuid) (quantity : Decimal)
  deriving DecidableEq, Repr

namespace Recorded

/-- The quantity that the database recorded. -/
def quantity : Recorded → Decimal
  | opened _ _ quantity | closed _ _ _ _ quantity => quantity

/-- What the exchange has executed of the order, or of the close orders of the trade. -/
def executed (actors : Nat → Actor) (b : FillBook) : Recorded → Decimal
  | opened orderId _ _ => b.executed orderId
  | closed _ _ _ trade _ => b.closing actors trade

/-- The report of an open holds every execution of its order. What the report of a close leaves open of its order,
and what the attempt took to be closed already, was executed by the order since and by other close orders. -/
def Whole (actors : Nat → Actor) (b : FillBook) : Recorded → Prop
  | opened orderId report _ => report = b.fills orderId
  | closed orderId report already trade _ =>
    b.since orderId report + b.closingBeside actors trade orderId = b.sentSize orderId - totalSize report + already

instance (actors : Nat → Actor) (b : FillBook) (r : Recorded) : Decidable (r.Whole actors b) := by
  cases r <;> simp only [Whole] <;> infer_instance

end Recorded

/-- What a step records for a task in its phase. -/
def recordedBy (phase : Nat → PollPhase) (already : Nat → Decimal) : Label Calls Move → Option Recorded
  | .call i (.db (.persistOpenTrade _ trade _)) (.ok _) => match phase i with
    | .accepted id report => some (.opened id report trade.quantity)
    | _ => none
  | .call i (.db (.persistClosedTrade _ closedTrade _ _ _ _ _)) (.ok _) => match phase i with
    | .accepted id report => some (.closed id report (already i) closedTrade.id closedTrade.quantity)
    | _ => none
  | _ => none

namespace Run

/-- Where the poll of task `i` is. -/
def pollPhase (h : Run FillBook) (i : Nat) : PollPhase := h.phases polling (fun _ => .idle) i

/-- Everything that was recorded after polling an order. -/
def recorded : Run FillBook → List Recorded
  | .start _ => []
  | .step h l _ => (recordedBy (pollPhase h) (alreadyClosed h) l).toList ++ recorded h

/-- What is recorded is what was executed. -/
def QuantityExact (actors : Nat → Actor) (h : Run FillBook) : Prop :=
  ∀ r ∈ h.recorded, r.quantity = r.executed actors h.world.exchange

instance (actors : Nat → Actor) (h : Run FillBook) : Decidable (h.QuantityExact actors) :=
  inferInstanceAs (Decidable (∀ r ∈ h.recorded, _))

end Run

/-- What this step records is whole, and nothing more is executed of what is recorded. -/
def RecordedWhole (actors : Nat → Actor) (h : Run FillBook) (l : Label Calls Move)
    (c : Config Calls (World FillBook) (Except Error Outcome)) : Prop :=
  (∀ r ∈ recordedBy h.pollPhase h.alreadyClosed l, r.Whole actors h.world.exchange) ∧
    ∀ r ∈ h.recorded, r.executed actors c.world.exchange = r.executed actors h.world.exchange

instance (actors : Nat → Actor) (h : Run FillBook) (l : Label Calls Move)
    (c : Config Calls (World FillBook) (Except Error Outcome)) : Decidable (RecordedWhole actors h l c) :=
  inferInstanceAs (Decidable ((∀ r ∈ recordedBy h.pollPhase h.alreadyClosed l, _) ∧ _))

section

variable {actors : Nat → Actor} {w₀ : World FillBook} {h : Run FillBook} {l : Label Calls Move}
  {c : Config Calls (World FillBook) (Except Error Outcome)} {i : Nat} {id : String} {report : List Execution}

theorem fills_step (hs : Step (worldSys fillModel) h.last l c) (id : String) :
    h.world.exchange.fills id <+: c.world.exchange.fills id := by
  rcases Run.exchange_cases hs with ⟨j, q, r, -, hresp, -⟩ | ⟨-, hmove, -⟩ | ⟨hx, -⟩
  · rcases FillBook.respond_cases hresp with hx | ⟨id', req, hfresh, hx⟩
    · simp only [hx, List.prefix_rfl]
    · simp only [hx, FillBook.fills_accept hfresh, List.prefix_rfl]
  · exact FillBook.Moves.fills hmove id
  · simp only [hx, List.prefix_rfl]

theorem positive_step (hs : Step (worldSys fillModel) h.last l c) (hp : h.world.exchange.Positive) :
    c.world.exchange.Positive := by
  rcases Run.exchange_cases hs with ⟨j, q, r, -, hresp, -⟩ | ⟨-, hmove, -⟩ | ⟨hx, -⟩
  · rcases FillBook.respond_cases hresp with hx | ⟨id', req, -, hx⟩
    · rw [hx]
      exact hp
    · rw [hx]
      exact List.forall_mem_cons.mpr ⟨fun e he => (by cases he), hp⟩
  · exact hp.moves hmove
  · rw [hx]
    exact hp

theorem afterAnswer_accepted {id' orderId : String} {r : Except ApiError (List Execution)} :
    ∀ {passes : Nat}, PollPhase.afterAnswer id' orderId passes r = .accepted id report →
      id' = id ∧ orderId = id ∧ r = .ok report
  | 0, h => by cases h
  | passes + 1, h => by
    cases r with
    | error e => cases h
    | ok execs =>
      simp only [PollPhase.afterAnswer, PollPhase.afterReport] at h
      split at h
      · rename_i hid
        split at h
        · cases h
          exact ⟨rfl, hid, rfl⟩
        · cases h
      · cases h

/-- A report that ended the polling holds the first executions of the order. -/
theorem Run.Of.accepted_fills : ∀ {h : Run FillBook}, h.Of fillModel w₀ actors →
    ∀ {i id report}, h.pollPhase i = .accepted id report → report <+: h.world.exchange.fills id
  | .start _, _, _, _, _, hp => by cases hp
  | .step h l c, hv, i, id, report, hp => by
    have grows : Run.pollPhase h i = .accepted id report → report <+: c.world.exchange.fills id :=
      fun hp => (Run.Of.accepted_fills hv.1 hp).trans (fills_step hv.2 id)
    cases l with
    | move m => exact grows hp
    | call j q r =>
      by_cases hij : i = j
      · subst hij
        have hnext : polling.next (Run.pollPhase h i) q r = .accepted id report :=
          (History.phases_call ..).symm.trans hp
        generalize Run.pollPhase h i = p at hnext grows
        cases p with
        | accepted => exact grows hnext
        | unpolled => cases hnext
        | idle =>
          cases q with
          | api q =>
            cases q with
            | sendChildOrder req => cases r <;> cases hnext
            | _ => cases hnext
          | _ => cases hnext
        | sent => cases q <;> cases hnext
        | polling id' passes =>
          cases q with
          | api q =>
            cases q with
            | getExecutions pair orderId =>
              obtain ⟨-, rfl, hr⟩ := afterAnswer_accepted hnext
              refine List.IsPrefix.trans ?_ (fills_step hv.2 orderId)
              have hresp := Run.exchange_api hv.2
              subst hr
              exact hresp.1
            | _ => cases hnext
          | _ => cases hnext
      · exact grows ((History.phases_call_ne _ _ _ _ hij).symm.trans hp)

/-- A trade that is opened after the polling has the total size of the report. -/
theorem Run.Of.opened_quantity {accountId : Uuid} {trade : Trade} {margin : Decimal} {r : Except Error Unit}
    (hv : h.Of fillModel w₀ actors)
    (hs : Step (worldSys fillModel) h.last (.call i (.db (.persistOpenTrade accountId trade margin)) r) c)
    (hp : h.pollPhase i = .accepted id report) : trade.quantity = totalSize report := by
  have hmay := Run.Of.mayAsk hv hs
  have hstart : Meets polling .idle (actors i).prog.run fun _ _ => True := by
    generalize Run.stage actors h i = s at hmay
    generalize actors i = a at hmay
    cases hmay with
    | @openTrade t signal trade =>
      exact MeetsE.run (MeetsE.map ((t.execute_polling signal).mono fun _ r _ => by cases r <;> trivial))
  have hallowed := @History.Valid.allowed _ _ _ _ _ _ _ polling (fun _ => .idle) _ i hstart h hv _ _ c hs
  rw [show h.phases polling (fun _ => .idle) i = .accepted id report from hp] at hallowed
  exact hallowed

/-- The id of the order a task polls. -/
def PollPhase.orderId? : PollPhase → Option String
  | .sent id | .polling id _ | .accepted id _ => some id
  | .idle | .unpolled => none

theorem afterAnswer_orderId {id' orderId : String} {r : Except ApiError (List Execution)} :
    ∀ {passes : Nat}, (PollPhase.afterAnswer id' orderId passes r).orderId? = some id → id' = id
  | 0, h => by cases h
  | passes + 1, h => by
    cases r with
    | error e => cases h
    | ok execs =>
      simp only [PollPhase.afterAnswer, PollPhase.afterReport] at h
      split at h
      · split at h <;> exact Option.some.inj h
      · exact Option.some.inj h

/-- A task polls the order that it sent. -/
theorem polling_next_orderId {p : PollPhase} {q : Calls.Call} {r : Calls.Ret q}
    (hn : (polling.next p q r).orderId? = some id) :
    p.orderId? = some id ∨ ∃ req, (.call i q r : Label Calls Move) = .call i (.api (.sendChildOrder req)) (.ok id) := by
  simp only [polling] at hn
  split at hn
  · rename_i req _
    cases hn
    exact .inr ⟨req, rfl⟩
  · exact .inl hn
  · exact .inl (congrArg some (afterAnswer_orderId hn))
  · exact .inl hn

/-- The order that a close attempt polls is one that it sent for what was left of its trade. -/
structure Polls (actors : Nat → Actor) (i : Nat) (h : Run FillBook) : Prop where
  unsent : h.closePhase i ≠ .done → (h.pollPhase i).orderId? = none
  order : ∀ id, (h.pollPhase i).orderId? = some id → ∃ o, h.world.exchange.Sole id o ∧ o.sender = i ∧
    ∀ trade, h.stage actors i = .holding trade → o.req.size = trade.quantity - h.alreadyClosed i

/-- The orders that a task polls after a step of the exchange. -/
theorem Polls.sole_step {o : FilledOrder} (hs : Step (worldSys fillModel) h.last l c)
    (ho : h.world.exchange.Sole id o) :
    ∃ o', c.world.exchange.Sole id o' ∧ o'.sender = o.sender ∧ o'.req = o.req := by
  rcases Run.exchange_cases hs with ⟨j, q, r, -, hresp, -⟩ | ⟨-, hmove, -⟩ | ⟨hx, -⟩
  · rcases FillBook.respond_cases hresp with hx | ⟨id', req, hfresh, hx⟩
    · exact ⟨o, by rw [hx]; exact ho, rfl, rfl⟩
    · exact ⟨o, by rw [hx]; exact ho.accept hfresh j req, rfl, rfl⟩
  · exact ho.moves hmove
  · exact ⟨o, by rw [hx]; exact ho, rfl, rfl⟩

/-- A step that leaves the attempt with its order. -/
theorem Polls.keep (hp : Polls actors i h) (hs : Step (worldSys fillModel) h.last l c)
    (hunsent : Run.closePhase (.step h l c) i ≠ .done → h.closePhase i ≠ .done)
    (hpoll : ∀ id, (Run.pollPhase (.step h l c) i).orderId? = some id → (h.pollPhase i).orderId? = some id)
    (halready : (h.pollPhase i).orderId? ≠ none → Run.alreadyClosed (.step h l c) i = h.alreadyClosed i)
    (hstage : (h.pollPhase i).orderId? ≠ none → ∀ trade,
      Run.stage actors (.step h l c : Run FillBook) i = .holding trade →
      h.stage actors i = .holding trade) : Polls actors i (.step h l c) := by
  refine ⟨fun hd => ?_, fun id hid => ?_⟩
  · have hnone := hp.unsent (hunsent hd)
    cases hnext : (Run.pollPhase (.step h l c) i).orderId? with
    | none => rfl
    | some id => cases hnone.symm.trans (hpoll id hnext)
  · have hold := hpoll id hid
    have hsome : (h.pollPhase i).orderId? ≠ none := by rw [hold]; nofun
    obtain ⟨o, ho, hsender, hsize⟩ := hp.order id hold
    obtain ⟨o', ho', hsender', hreq⟩ := Polls.sole_step hs ho
    refine ⟨o', ho', hsender'.trans hsender, fun trade ht => ?_⟩
    rw [hreq, halready hsome]
    exact hsize trade (hstage hsome trade ht)

/-- A call of the attempt. -/
theorem Polls.call {q : Calls.Call} {r : Calls.Ret q} {uuid : Uuid} (hp : Polls actors i h)
    (hi : (actors i).closes uuid)
    (hv : h.Of fillModel w₀ actors) (hs : Step (worldSys fillModel) h.last (.call i q r) c) :
    Polls actors i (.step h (.call i q r) c) := by
  have hpoll : Run.pollPhase (.step h (.call i q r) c) i = polling.next (h.pollPhase i) q r := History.phases_call ..
  have hclose : Run.closePhase (.step h (.call i q r) c) i = closing.next (h.closePhase i) q r := Run.closePhase_call ..
  have hallowed := hv.closing_allowed hs hi
  by_cases hsend : ∃ req id, (.call i q r : Label Calls Move) = .call i (.api (.sendChildOrder req)) (.ok id)
  · -- It sends its order.
    obtain ⟨req, id, he⟩ := hsend
    cases he
    obtain ⟨trade, ht, hreq⟩ := Run.Of.sent_size hv hi hs
    have hnone : (h.pollPhase i).orderId? = none := hp.unsent fun hd => by rw [hd] at hallowed; exact hallowed
    refine ⟨fun hd => absurd (hclose.trans (by cases h.closePhase i <;> rfl)) hd, fun id' hid => ?_⟩
    rw [hpoll] at hid
    rcases polling_next_orderId (i := i) hid with hold | ⟨req', he⟩
    · cases hnone.symm.trans hold
    · cases he
      have hresp : h.world.exchange.Fresh id ∧ c.world.exchange = h.world.exchange.accept id i req :=
        Run.exchange_api hs
      refine ⟨⟨id, i, req, []⟩, ?_, rfl, fun trade' ht' => ?_⟩
      · rw [History.world_step, hresp.2]
        exact hresp.1.sole i req
      · rw [Run.stage_quiet h i (.api (.sendChildOrder req)) trivial, ht] at ht'
        cases ht'
        rw [Run.alreadyClosed_keep fun _ hread => by cases hread]
        exact congrArg SendChildOrderRequest.size hreq
  · have hdone : (h.pollPhase i).orderId? ≠ none → h.closePhase i = .done := fun hsome =>
      not_not.mp fun hd => hsome (hp.unsent hd)
    refine hp.keep hs (fun hd hold => hd ?_) (fun id hid => ?_) (fun hsome => ?_) fun hsome trade ht => ?_
    · rw [hclose, hold, closing_next_done]
    · rw [hpoll] at hid
      exact (polling_next_orderId (i := i) hid).resolve_right fun ⟨req, he⟩ => hsend ⟨req, id, he⟩
    · exact Run.alreadyClosed_keep fun _ _ => by rw [hdone hsome]; rfl
    · rw [hdone hsome] at hallowed
      by_cases hq : Call.quiet q
      · rwa [Run.stage_quiet h i q hq] at ht
      · cases q with
        | db q =>
          rw [Run.stage_db, Function.update_self] at ht
          rcases Run.closing_query hi (hv.mayAsk hs) hallowed i r with ⟨hidle, -⟩ | ⟨-, hover⟩
          · cases hidle
          · exact absurd ht (hover trade)
        | _ => exact absurd trivial hq

/-- In every run, a close attempt polls the order that it sent for what was left of its trade. -/
theorem Run.Of.polls {uuid : Uuid} (hi : (actors i).closes uuid) : ∀ {h : Run FillBook}, h.Of fillModel w₀ actors →
    Polls actors i h
  | .start _, _ => ⟨fun _ => rfl, fun _ hid => by cases hid⟩
  | .step h (.move m) c, hv => by
    refine (Run.Of.polls hi hv.1).keep hv.2 id (fun _ => id) (fun _ => ?_) fun _ _ => id
    exact Run.alreadyClosed_keep fun _ hread => by cases hread
  | .step h (.call j q r) c, hv => by
    have ih := Run.Of.polls hi hv.1
    by_cases hij : i = j
    · subst hij
      exact ih.call hi hv.1 hv.2
    · refine ih.keep hv.2 (fun hd => ?_) (fun id hid => ?_) (fun _ => ?_) fun _ trade ht => ?_
      · rwa [Run.closePhase_call_ne _ _ hij] at hd
      · rwa [show Run.pollPhase (.step h (.call j q r) c) i = Run.pollPhase h i from
          History.phases_call_ne _ _ _ _ hij] at hid
      · exact Run.alreadyClosed_keep fun p hread => absurd hread (Run.positionsRead_ne hij p)
      · rwa [Run.stage_call_ne h q r c hij] at ht

/-- A trade that is closed after the polling of an order: what its close orders have executed, and its quantity. -/
theorem Run.Of.closed_quantity {accountId : Uuid} {trade : Trade} {margin pnl price : Decimal} {exitAt : DateTime}
    {reason : ExitReason} {r : Except Error Unit} (hv : h.Of fillModel w₀ actors)
    (hs : Step (worldSys fillModel) h.last
      (.call i (.db (.persistClosedTrade accountId trade margin pnl price exitAt reason)) r) c)
    (hp : h.pollPhase i = .accepted id report) :
    h.world.exchange.closing actors trade.id =
        totalSize report + (h.world.exchange.since id report + h.world.exchange.closingBeside actors trade.id id) ∧
      trade.quantity = h.world.exchange.sentSize id + h.alreadyClosed i := by
  have hmay := Run.Of.mayAsk hv hs
  have hheld : ∃ t uuid, (actors i).closes uuid ∧ h.stage actors i = .holding t ∧ t.id = uuid ∧
      trade.id = t.id ∧ trade.quantity = t.quantity := by
    have hreads := (Run.Of.reads hv).asked i
    generalize hst : Run.stage actors h i = s at hmay hreads
    generalize actors i = a at hmay hreads
    cases hmay with
    | @close t uuid reason trade =>
      exact ⟨trade, uuid, decide_eq_true rfl, rfl, (hreads trade t uuid reason rfl rfl).1, rfl, rfl⟩
  obtain ⟨t, uuid, hi, hst, rfl, hid, hq⟩ := hheld
  obtain ⟨o, hsole, hsender, hsize⟩ := (Run.Of.polls hi hv).order id (by rw [hp]; rfl)
  obtain ⟨rest, hrest⟩ := Run.Of.accepted_fills hv hp
  rw [hid, hq, hsole.sentSize, hsize t hst, sub_add_cancel, FillBook.since, ← hrest, List.drop_left,
    hsole.closing (hsender ▸ hi), ← hsole.fills, ← hrest, totalSize_append]
  exact ⟨add_assoc _ _ _, rfl⟩

/-- What a step records is what was executed iff it is whole. -/
theorem Run.Of.recorded_whole (hv : h.Of fillModel w₀ actors) (hs : Step (worldSys fillModel) h.last l c)
    (hpos : h.world.exchange.Positive) {r : Recorded} (hr : recordedBy h.pollPhase h.alreadyClosed l = some r) :
    r.quantity = r.executed actors c.world.exchange ↔ r.Whole actors h.world.exchange := by
  have hx : ∀ {j q a}, l = .call j (.db q) a → c.world.exchange = h.world.exchange := by
    rintro j q a rfl
    exact Run.exchange_db hs
  unfold recordedBy at hr
  split at hr
  · rename_i i accountId trade margin a
    split at hr
    · rename_i id report hphase
      cases hr
      have hq := hv.opened_quantity hs hphase
      obtain ⟨rest, hrest⟩ := Run.Of.accepted_fills hv hphase
      have hposr : ∀ e ∈ rest, 0 < e.size := fun e he =>
        hpos.fills id e (by rw [← hrest]; exact List.mem_append_right _ he)
      show trade.quantity = c.world.exchange.executed id ↔ report = h.world.exchange.fills id
      rw [hx rfl, hq, FillBook.executed, ← hrest, totalSize_append]
      constructor
      · intro he
        rw [eq_nil_of_totalSize hposr (by linarith), List.append_nil]
      · intro he
        have hnil : rest = [] := by simpa using he
        rw [hnil]
        simp [totalSize]
    · cases hr
  · rename_i i accountId trade margin pnl price exitAt reason a
    split at hr
    · rename_i id report hphase
      cases hr
      have hclose := hv.closed_quantity hs hphase
      show trade.quantity = c.world.exchange.closing actors trade.id ↔
        h.world.exchange.since id report + h.world.exchange.closingBeside actors trade.id id =
          h.world.exchange.sentSize id - totalSize report + h.alreadyClosed i
      rw [hx rfl, hclose.1, hclose.2]
      constructor <;> intro he <;> linarith
    · cases hr
  · cases hr

theorem Run.Of.positive (h₀ : w₀.exchange.Positive) : ∀ {h : Run FillBook}, h.Of fillModel w₀ actors →
    h.world.exchange.Positive
  | .start c, hv => by
    have hc : c = begin w₀ actors := hv
    rw [hc]
    exact h₀
  | .step _ _ _, hv => positive_step hv.2 (Run.Of.positive h₀ hv.1)

end

/-! ## An order that is filled in parts -/

/-- An order is executed further. -/
def FillBook.fill (id : String) (size : Decimal) (b : FillBook) : FillBook :=
  ⟨b.orders.map fun o => if o.id = id then { o with fills := o.fills ++ [⟨100, size, 0⟩] } else o⟩

/-- A live open of fifty units, of which the first answer reports a part. -/
def samplePartialOpen : Run FillBook :=
  .play fillModel ⟨sampleDb, ⟨[]⟩, 0⟩ (fun _ => .execute (sampleTrader false) sampleSignal)
    [.commit 0, .price 0 99 100, .clock 0,
      .answer 0 (.sent (.ok "order")) fun b => b.accept "order" 0 (Trader.signalToSendChildOrder sampleSignal 50),
      .passes 0 1, .exchange (FillBook.fill "order" 20), .reply 0 (.executions (.ok [⟨100, 20, 0⟩])),
      .clock 0, .reply 0 (.stopPlaced (.ok "stop")), .uuid 0 7, .commit 0,
      .exchange (FillBook.fill "order" 30)]

/-- A live close of two units, of which one is executed when the first answer comes. -/
def samplePartialClose : Run FillBook :=
  .play fillModel ⟨sampleOpenDb, ⟨[]⟩, 0⟩ sampleClosers
    [.commit 0, .reply 0 (.sfd (.ok 0)), .reply 0 (.stopStatus (.ok .gone)),
      .answer 0 (.sent (.ok "order")) fun b => b.accept "order" 0 (Trader.closeOrderRequest sampleTrade.toTrade 2),
      .passes 0 1, .exchange (FillBook.fill "order" 1), .reply 0 (.executions (.ok [⟨100, 1, 0⟩])), .clock 0, .commit 0]

/-- A task that opens a trade, and one that closes it. -/
def sampleOpenAndClose : Nat → Actor
  | 0 => .execute (sampleTrader false) sampleSignal
  | _ => .closePosition (sampleTrader false) 7 .tpHit

/-- A live open and a live close, each of which is executed in two parts before the first answer. -/
def sampleWholeFills : Run FillBook :=
  .play fillModel ⟨sampleDb, ⟨[]⟩, 0⟩ sampleOpenAndClose
    [.commit 0, .price 0 99 100, .clock 0,
      .answer 0 (.sent (.ok "order")) fun b => b.accept "order" 0 (Trader.signalToSendChildOrder sampleSignal 50),
      .passes 0 1, .exchange (FillBook.fill "order" 20), .exchange (FillBook.fill "order" 30),
      .reply 0 (.executions (.ok [⟨100, 20, 0⟩, ⟨100, 30, 0⟩])),
      .clock 0, .reply 0 (.stopPlaced (.ok "stop")), .uuid 0 7, .commit 0,
      .commit 1, .reply 1 (.sfd (.ok 0)), .reply 1 (.stopStatus (.ok .gone)),
      .answer 1 (.sent (.ok "exit")) fun b => b.accept "exit" 1 (Trader.closeOrderRequest sampleTrade.toTrade 50),
      .passes 1 1, .exchange (FillBook.fill "exit" 20), .exchange (FillBook.fill "exit" 30),
      .reply 1 (.executions (.ok [⟨100, 20, 0⟩, ⟨100, 30, 0⟩])), .clock 1, .commit 1]

end AutoTrader
