import AutoTrader.Executor.Book

/-!
# What a failed open leaves at the exchange

When a live open fails after its order was sent, either its error tells the operator that the order must
be looked after (`Error.silent` is false), or the order should have executed nothing. The code does not
see to the second: it takes an order that was cancelled or expired as one that was not filled, and a
cancellation that was requested as one that happened. `silent_loss_iff` says which answers of the exchange
end an open without a word, so that a silent failure hides no position iff no order that executes
something is answered for in one of these ways; `sampleSilentOpen_loses` is one that is.
-/

namespace AutoTrader

open Lib (Config History Label Prog Protocol Step)
open Lib.Prog (Meets MeetsE Only)
open Piece (lit arg)

variable {actors : Nat → Actor} {w₀ : World Book}

/-! ## Silent errors -/

/-- The piece does not say that the order must be looked after. -/
def Piece.silent (p : Piece) : Bool :=
  !(p.tells "manual reconciliation required" || p.tells "manual intervention required" || p.tells "orphan")

/-- The error does not itself say that manual reconciliation or intervention is required or that the order
may be an orphan. -/
def Error.silent (e : Error) : Bool := e.all Piece.silent

@[simp] theorem Error.silent_append (e e' : Error) : Error.silent (e ++ e') = (Error.silent e && Error.silent e') :=
  List.all_append

@[simp] theorem Error.silent_cons (p : Piece) (e : Error) :
    Error.silent (p :: e) = (p.silent && Error.silent e) := rfl

@[simp] theorem Error.silent_nil : Error.silent [] = true := rfl

@[simp] theorem Piece.silent_arg (s : String) : (arg s).silent = true := rfl

/-- The texts of an open that say nothing of the kind. -/
def quietTexts : List String :=
  ["failed to poll executions: timed out after ", "failed to aggregate ", " executions: ",
    "invalid fills: total size is zero", ": order \"", "\" not filled: state=", ", no cleanup needed",
    "\" state=", ", cancel requested", "failed to aggregate executions for order \"", "\": ",
    "failed to open order \"", "\": aggregate error: ", "; cleanup: ",
    "invalid order: no executions and still active", "; reconciliation found no executions; cleanup: ",
    "invalid order \"", "\": not filled (state=", ")", "invalid order: no executions and no order record found",
    "; reconciliation found no executions or order; cleanup: ", "failed to get child orders for \"",
    "; failed to get child orders: ", "failed to get executions for \"", "; failed to get executions: "]

theorem quietTexts_silent : ∀ s ∈ quietTexts, (lit s).silent = true := by decide +kernel

/-- The texts of an open that do. -/
def loudTexts : List String :=
  ["; may be orphan",
    "\": state=Completed but fill details could not be aggregated; manual reconciliation required",
    "; manual intervention required",
    "\": state=Completed but no execution data available; orphan — manual reconciliation required"]

theorem loudTexts_loud : ∀ s ∈ loudTexts, (lit s).silent = false := by decide +kernel

theorem Piece.silent_lit {s : String} (h : s ∈ quietTexts) : (lit s).silent = true := quietTexts_silent s h

theorem Piece.loud_lit {s : String} (h : s ∈ loudTexts) : (lit s).silent = false := loudTexts_loud s h

/-! ## The answers that end an open silently -/

/-- The executions add up to no size. -/
def noSize (execs : List Execution) : Bool :=
  match aggregateExecutions execs with
  | .ok _ => false
  | .error _ => true

/-- The state counts as one in which the order was not filled. -/
def ChildOrderState.ended : ChildOrderState → Bool
  | .canceled | .expired | .rejected => true
  | .active | .completed => false

/-- The answers after which an open fails without a word: the order was not sent, its state is one of an
order that was not filled, its cancellation was requested, or its executions have no size. -/
def silentAnswer : (c : Call) → c.Ret → Bool
  | .api (.sendChildOrder _), .error _ => true
  | .api (.getChildOrders _ _), .ok (order :: _) => order.childOrderState.ended
  | .api (.cancelChildOrder _ _), .ok _ => true
  | .api (.getExecutions _ _), .ok execs => !execs.isEmpty && noSize execs
  | _, _ => false

theorem silentAnswer_childOrders {pair orderId : String} {orders : List ChildOrder} :
    silentAnswer (.api (.getChildOrders pair orderId)) (.ok orders) =
      (orders.head?.map ChildOrder.childOrderState).any ChildOrderState.ended := by
  cases orders <;> rfl

/-- How far an open is, and what it was answered last. -/
structure OpenPhase where
  sent : Bool
  /-- It filled the order and went on to persist the trade. -/
  persisting : Bool
  lastSilent : Bool

/-- What an open has sent and been answered. -/
def opening : Protocol Calls OpenPhase where
  allowed _ _ := True
  next p c r :=
    { sent := p.sent || (match c with | .api (.sendChildOrder _) => true | _ => false)
      persisting := p.persisting || (match c with | .db (.persistOpenTrade _ _ _) => true | _ => false)
      lastSilent := silentAnswer c r }

/-- The rule for a part whose calls do not matter. -/
theorem meets_opening {α : Type} : ∀ {p : OpenPhase} (x : Prog Calls α), Meets opening p x fun _ _ => True
  | _, .done _ => trivial
  | _, .call _ k => ⟨trivial, fun r => meets_opening (k r)⟩

namespace Trader

variable (t : Trader)

/-- The error is silent exactly if the last answer is one of those that end an open silently. -/
def EndsOn (p : OpenPhase) (e : Error) : Prop := Error.silent e = p.lastSilent

theorem aggregateExecutions_error {execs : List Execution} {e : Error} (h : aggregateExecutions execs = .error e) :
    Error.silent e = true ∧ noSize execs = true := by
  refine ⟨?_, by simp [noSize, h]⟩
  simp only [aggregateExecutions, weightedAvgFills] at h
  split at h
  · cases h
  · rename_i hw
    split at hw
    · cases hw
      cases h
      simp (disch := decide) [Piece.silent_lit]
    · cases hw

theorem cleanupUnfilledOrder_opening (pair : Pair) (orderId : String) {context : Error}
    (hc : Error.silent context = true) (p : OpenPhase) :
    Meets opening p (cleanupUnfilledOrder pair orderId context) EndsOn := by
  refine meets_ask trivial fun r => ?_
  cases r with
  | error e => simp (disch := decide) [EndsOn, hc, Piece.silent_lit, Piece.loud_lit, opening, silentAnswer]
  | ok orders =>
    have hlast : silentAnswer (.api (.getChildOrders pair orderId)) (.ok orders) =
        (orders.head?.map ChildOrder.childOrderState).any ChildOrderState.ended := silentAnswer_childOrders
    dsimp only
    generalize orders.head?.map ChildOrder.childOrderState = state at hlast ⊢
    split
    · refine Eq.trans ?_ hlast.symm
      simp (disch := decide) [Piece.loud_lit, ChildOrderState.ended]
    · refine Eq.trans ?_ hlast.symm
      simp (disch := decide) [hc, Piece.silent_lit, ChildOrderState.ended]
    · refine Eq.trans ?_ hlast.symm
      simp (disch := decide) [hc, Piece.silent_lit, ChildOrderState.ended]
    · refine Eq.trans ?_ hlast.symm
      simp (disch := decide) [hc, Piece.silent_lit, ChildOrderState.ended]
    · refine meets_ask trivial fun r => ?_
      cases r with
      | ok _ => simp (disch := decide) [EndsOn, hc, Piece.silent_lit, opening, silentAnswer]
      | error e => simp (disch := decide) [EndsOn, hc, Piece.loud_lit, opening, silentAnswer]

/-- A part that may succeed in any way, and fails as its last answer says. -/
abbrev MeetsOpening {α : Type} (p : OpenPhase) (x : Exec α) : Prop := MeetsE opening p x (fun _ _ => True) EndsOn

theorem finalizeReconciledFill_opening (pair : Pair) (orderId : String) (execs : List Execution) (p : OpenPhase) :
    MeetsOpening p (finalizeReconciledFill pair orderId execs) := by
  simp only [finalizeReconciledFill]
  split
  · exact MeetsE.pure trivial
  · rename_i aggErr hagg
    have hq := (aggregateExecutions_error hagg).1
    refine MeetsE.bindLift ((cleanupUnfilledOrder_opening pair orderId ?_ p).mono fun q e he => MeetsE.throw ?_)
    · simp (disch := decide) [hq, Piece.silent_lit]
    · have he : Error.silent e = q.lastSilent := he
      simp (disch := decide) [EndsOn, hq, he, Piece.silent_lit]

theorem reconcileFromChildOrder_opening (pair : Pair) (orderId : String) {pollErr : Error}
    (hpoll : Error.silent pollErr = true) (order : ChildOrder) {p : OpenPhase}
    (hp : p.lastSilent = order.childOrderState.ended) :
    MeetsOpening p (reconcileFromChildOrder pair orderId pollErr order) := by
  simp only [reconcileFromChildOrder]
  split
  · have fallback : ∀ q : OpenPhase, q.lastSilent = false → MeetsOpening q
        (if (decide (0 < order.averagePrice) && decide (0 < order.executedSize)) = true then
          pure (order.averagePrice, order.executedSize, (0 : Decimal))
        else throw [lit "invalid order \"", arg orderId, lit ("\": state=Completed but no execution data available; " ++
          "orphan — manual reconciliation required")]) := by
      intro q hq
      split
      · exact MeetsE.pure trivial
      · refine MeetsE.throw (Eq.trans ?_ hq.symm)
        simp (disch := decide) [Piece.loud_lit]
    refine meets_api trivial fun r => ?_
    cases r with
    | error e => exact fallback _ rfl
    | ok execs =>
      have hlast : (opening.next p (.api (.getExecutions pair orderId)) (.ok execs)).lastSilent =
        (!execs.isEmpty && noSize execs) := rfl
      dsimp only
      split
      · rename_i hempty
        exact fallback _ (by rw [hlast, hempty]; rfl)
      · rename_i hempty
        split
        · exact MeetsE.pure trivial
        · rename_i e hagg
          obtain ⟨hs, hn⟩ := aggregateExecutions_error hagg
          refine MeetsE.throw (hs.trans (Eq.trans ?_ hlast.symm))
          simp [hn, hempty]
  · refine MeetsE.bindLift ((cleanupUnfilledOrder_opening _ _ ?_ _).mono fun q e he => MeetsE.throw ?_)
    · simp (disch := decide) [Piece.silent_lit]
    · have he : Error.silent e = q.lastSilent := he
      simp (disch := decide) [EndsOn, hpoll, he, Piece.silent_lit]
  · rename_i hcompleted hactive
    refine MeetsE.throw (Eq.trans ?_ hp.symm)
    cases hs : order.childOrderState with
    | completed => exact absurd hs hcompleted
    | active => exact absurd hs hactive
    | _ => simp (disch := decide) [Piece.silent_lit, ChildOrderState.ended]

theorem reconcileViaChildOrderLookup_opening (signal : Signal) (orderId : String) {pollErr : Error}
    (hpoll : Error.silent pollErr = true) (p : OpenPhase) :
    MeetsOpening p (reconcileViaChildOrderLookup signal orderId pollErr) := by
  refine meets_api trivial fun r => ?_
  rcases r with e | (_ | ⟨order, orders⟩)
  · refine MeetsE.bindLift ((cleanupUnfilledOrder_opening _ _ ?_ _).mono fun q e he => MeetsE.throw ?_)
    · simp (disch := decide) [Piece.silent_lit]
    · have he : Error.silent e = q.lastSilent := he
      simp (disch := decide) [EndsOn, hpoll, he, Piece.silent_lit]
  · refine MeetsE.bindLift ((cleanupUnfilledOrder_opening _ _ ?_ _).mono fun q e he => MeetsE.throw ?_)
    · simp (disch := decide) [Piece.silent_lit]
    · have he : Error.silent e = q.lastSilent := he
      simp (disch := decide) [EndsOn, hpoll, he, Piece.silent_lit]
  · exact reconcileFromChildOrder_opening _ _ hpoll order rfl

theorem reconcileUnpolledOpen_opening (signal : Signal) (orderId : String) {pollErr : Error}
    (hpoll : Error.silent pollErr = true) (p : OpenPhase) :
    MeetsOpening p (reconcileUnpolledOpen signal orderId pollErr) := by
  refine meets_api trivial fun r => ?_
  cases r with
  | error e =>
    refine MeetsE.bindLift ((cleanupUnfilledOrder_opening _ _ ?_ _).mono fun q e he => MeetsE.throw ?_)
    · simp (disch := decide) [Piece.silent_lit]
    · have he : Error.silent e = q.lastSilent := he
      simp (disch := decide) [EndsOn, hpoll, he, Piece.silent_lit]
  | ok execs =>
    dsimp only
    split
    · exact reconcileViaChildOrderLookup_opening signal orderId hpoll _
    · exact finalizeReconciledFill_opening _ _ _ _

/-- A failed poll is silent. -/
theorem pollExecutions_opening (orderId : String) (pair : Pair) (p : OpenPhase) :
    MeetsE opening p (pollExecutions orderId pair) (fun _ _ => True) fun _ e => Error.silent e = true := by
  have loop : ∀ n p, MeetsE opening p (pollExecutionsLoop orderId pair n) (fun _ _ => True)
      fun _ e => Error.silent e = true := by
    intro n
    induction n with
    | zero => exact fun p => MeetsE.throw (by simp (disch := decide) [Piece.silent_lit])
    | succ n ih =>
      intro p
      refine MeetsE.bind (meets_apiOrThrow trivial (fun execs => ?_) fun e => rfl)
      split
      · exact ih _
      · split
        · exact MeetsE.pure trivial
        · exact ih _
  exact MeetsE.bindLift ⟨trivial, fun n => loop n _⟩

theorem fillOpenLive_opening (signal : Signal) (quantity : Decimal) (p : OpenPhase) :
    MeetsOpening p (fillOpenLive signal quantity) := by
  refine MeetsE.bind (meets_apiOrThrow trivial (fun orderId => ?_) fun e => rfl)
  refine MeetsE.bind (MeetsE.attempt ((pollExecutions_opening _ _ _).mono (fun p r _ => MeetsE.pure trivial)
    fun p pollErr hpoll => ?_))
  exact reconcileUnpolledOpen_opening signal orderId hpoll p

theorem sent_next_of_reads {q : OpenPhase} (hq : q.sent = false) {c : Call} (hc : c.reads) (r : c.Ret) :
    (opening.next q c r).sent = false := by
  cases c with
  | api c => cases c <;> first | exact hc.elim | simp [opening, hq]
  | db q => exact hc.elim
  | _ => simp [opening, hq]

/-- A part that only looks things up sends no order. -/
theorem sent_of_reads {α : Type} {x : Prog Calls α} (hx : Only Call.reads x) {p : OpenPhase} (hp : p.sent = false) :
    Meets opening p x fun q _ => q.sent = false :=
  hx.invariant (A := opening) (J := fun q => q.sent = false)
    (fun _ _ hq hc => ⟨trivial, fun r => sent_next_of_reads hq hc r⟩) hp

theorem opening_of_reads {α : Type} {x : Exec α} (hx : Only Call.reads x.run) {p : OpenPhase} (hp : p.sent = false) :
    MeetsE opening p x (fun q _ => q.sent = false) fun q _ => q.sent = false :=
  (sent_of_reads hx hp).mono fun q r hq => by cases r <;> exact hq

/-- What comes before the order does not send it. -/
theorem prepareEntry_opening (signal : Signal) {p : OpenPhase} (hp : p.sent = false) :
    MeetsE opening p (t.prepareEntry signal) (fun q _ => q.sent = false) fun q _ => q.sent = false := by
  have hentry : Only (fun c : Call => c.reads ∨ c = .db (.getAccount t.accountId)) (t.prepareEntry signal).run :=
    t.only_prepareEntry (.inr rfl) (.inl trivial) (.inl trivial)
  refine (hentry.invariant (A := opening) (J := fun q => q.sent = false) (fun q c hq hc => ?_) hp).mono
    fun q r hq => by rcases r with _ | _ <;> exact hq
  rcases hc with hc | rfl
  · exact ⟨trivial, fun r => sent_next_of_reads hq hc r⟩
  · exact ⟨trivial, fun r => by simp [opening, hq]⟩

/-- An open that fails before it persists its trade, and after it sent its order, fails as its last answer
says. -/
theorem execute_opening (signal : Signal) {p : OpenPhase} (hp : p.sent = false) :
    MeetsE opening p (t.execute signal) (fun _ _ => True)
      fun q e => q.persisting = false → q.sent = true → EndsOn q e := by
  have unsent : ∀ (q : OpenPhase) (e : Error), q.sent = false → q.persisting = false → q.sent = true → EndsOn q e :=
    fun q e hq _ hsent => absurd (hq.symm.trans hsent) Bool.false_ne_true
  refine MeetsE.bind ((t.prepareEntry_opening signal hp).mono (fun q entry hq => ?_) unsent)
  have hfill : MeetsE opening q (t.fillOpen signal entry.2.1) (fun _ _ => True)
      fun q e => q.persisting = false → q.sent = true → EndsOn q e := by
    simp only [fillOpen]
    split
    · exact MeetsE.bind ((opening_of_reads (t.reads_latestBidAsk _) hq).mono (fun _ _ _ => MeetsE.pure trivial) unsent)
    · exact (fillOpenLive_opening signal _ q).mono (fun _ _ _ => trivial) fun _ _ he _ _ => he
  refine MeetsE.bind (hfill.mono (fun q fill _ => ?_) fun _ _ he => he)
  refine MeetsE.bindLift ((meets_opening utcNow).mono fun q entryAt _ => ?_)
  refine MeetsE.bindLift ((meets_opening (t.resolveExchangePositionId _ _ _)).mono fun q pid _ => ?_)
  refine MeetsE.bindLift ((meets_opening (t.placeProtectiveStopOrder _ _ _ _)).mono fun q stop _ => ?_)
  refine MeetsE.bindLift ((meets_opening newUuid).mono fun q id _ => ?_)
  refine MeetsE.bind (meets_query trivial (fun _ => MeetsE.pure trivial) fun e hpersist => ?_)
  simp [opening] at hpersist

end Trader

/-! ## Runs -/

namespace Run

/-- No task has sent an order. -/
def unsent (_ : Nat) : OpenPhase := ⟨false, false, false⟩

/-- Where the open of task `i` is. -/
def openPhase (h : Run Book) (i : Nat) : OpenPhase := h.phases opening unsent i

/-- The open of task `i` has ended with an error of `fill_open`: it never came to persist a trade. -/
def OpenFailed (h : Run Book) (i : Nat) (e : Error) : Prop :=
  (h.last.thread i).failed? = some e ∧ (h.openPhase i).persisting = false

end Run

/-- The market orders a task has sent. -/
def sentByTask (i : Nat) : OrderKind → Bool
  | .market sender _ => sender = i
  | .stop _ => false

section

variable {h : Run Book} {i : Nat}

theorem Run.Of.ends (hv : h.Of bookModel w₀ actors) {t : Trader} {signal : Signal}
    (hi : actors i = .execute t signal) {e : Error} (hf : h.OpenFailed i e) (hsent : (h.openPhase i).sent = true) :
    Error.silent e = (h.openPhase i).lastSilent := by
  have h₀ : Meets opening (Run.unsent i) ((begin w₀ actors).thread i) fun p r => match r with
      | .ok _ => True
      | .error e => p.persisting = false → p.sent = true → Trader.EndsOn p e := by
    simp only [begin, hi]
    have hexecute := t.execute_opening signal (p := Run.unsent i) rfl
    exact MeetsE.run (MeetsE.map (R := fun _ _ => True) hexecute)
  have hmeets := History.Valid.meets h₀ hv
  rw [Prog.failed?_eq_some.mp hf.1] at hmeets
  exact hmeets hf.2 hsent

theorem openPhase_sent {l : Label Calls Move} {c : Config Calls (World Book) (Except Error Outcome)}
    (hs : (h.openPhase i).sent = true) : (Run.openPhase (.step h l c) i).sent = true := by
  cases l with
  | move m => exact hs
  | call j q r =>
    simp only [Run.openPhase, History.phases] at hs ⊢
    by_cases hij : i = j
    · subst hij
      rw [Function.update_self]
      exact (Bool.or_eq_true ..).mpr (.inl hs)
    · rwa [Function.update_of_ne hij]

/-- Only a task that has sent an order has one at the exchange. -/
theorem Run.Of.sent (h₀ : ∀ o ∈ w₀.exchange.orders, ∀ i req, o.kind ≠ .market i req) {req : SendChildOrderRequest} :
    ∀ {h : Run Book}, h.Of bookModel w₀ actors → (∃ o ∈ h.world.exchange.orders, o.kind = .market i req) →
      (h.openPhase i).sent = true
  | .start c, hv, ⟨o, ho, hk⟩ => by
    have hc : c = begin w₀ actors := hv
    rw [hc] at ho
    exact absurd hk (h₀ o ho i req)
  | .step h l c, hv, hk => by
    have ih : (∃ o ∈ h.world.exchange.orders, o.kind = .market i req) → (Run.openPhase h i).sent = true :=
      Run.Of.sent h₀ hv.1
    rcases Run.exchange_cases hv.2 with ⟨j, q, r, rfl, hresp, -⟩ | ⟨rfl, hmove, -⟩ | ⟨hx, -⟩
    · rcases Book.respond_cases hresp with hm | ⟨req', rfl, hacc⟩ | ⟨id, size, -, hplace⟩
      · exact openPhase_sent (ih ((hm.kinds _).mpr hk))
      · rw [History.world_step, hacc] at hk
        obtain ⟨o, ho, hk⟩ := hk
        rcases List.mem_cons.mp ho with rfl | ho
        · cases hk
          simp only [Run.openPhase, History.phases, Function.update_self]
          exact (Bool.or_eq_true ..).mpr (.inr rfl)
        · exact openPhase_sent (ih ⟨o, ho, hk⟩)
      · rw [History.world_step, hplace] at hk
        obtain ⟨o, ho, hk⟩ := hk
        rcases List.mem_cons.mp ho with rfl | ho
        · cases hk
        · exact openPhase_sent (ih ⟨o, ho, hk⟩)
    · exact openPhase_sent (ih ((Book.Moves.kinds hmove _).mpr hk))
    · rw [History.world_step, hx] at hk
      exact openPhase_sent (ih hk)

theorem executed_unsent {b : Book} (hb : ∀ o ∈ b.orders, ∀ req, o.kind ≠ .market i req) :
    b.executed (sentByTask i) = 0 := by
  have hnil : (b.orders.filter fun o => sentByTask i o.kind) = [] := by
    refine List.filter_eq_nil_iff.mpr fun o ho hs => ?_
    cases hk : o.kind with
    | market sender req =>
      rw [hk] at hs
      obtain rfl := of_decide_eq_true hs
      exact hb o ho req hk
    | stop id => rw [hk] at hs; cases hs
  simp [Book.executed, hnil]

end

/-- For every open, in every run of any tasks over the exchange: that it leaves no silent position (if it
fails in `fill_open` with an error that does not tell the operator to look after the order, then its order
has executed nothing, up to then and later) says the same as: if it fails there on one of the answers of
`silentAnswer`, then its order has executed nothing. -/
theorem silent_loss_iff (h₀ : ∀ o ∈ w₀.exchange.orders, ∀ i req, o.kind ≠ .market i req) {h : Run Book}
    (hv : h.Of bookModel w₀ actors) {i : Nat} {t : Trader} {signal : Signal} (hi : actors i = .execute t signal) :
    (∀ e, h.OpenFailed i e → Error.silent e = true → h.world.exchange.executed (sentByTask i) = 0) ↔
      ∀ e, h.OpenFailed i e → (h.openPhase i).lastSilent = true → h.world.exchange.executed (sentByTask i) = 0 := by
  refine forall_congr' fun e => imp_congr_right fun hf => ?_
  cases hsent : (h.openPhase i).sent with
  | true => rw [hv.ends hi hf hsent]
  | false =>
    have hzero : h.world.exchange.executed (sentByTask i) = 0 := by
      refine executed_unsent fun o ho req hk => ?_
      have := hv.sent h₀ ⟨o, ho, hk⟩
      rw [hsent] at this
      cases this
    simp [hzero]

/-! ## A partial fill that is lost -/

/-- One live open. -/
def sampleOpen (i : Nat) : Actor :=
  if i = 0 then .execute (sampleTrader false) sampleSignal else .releaseCloseLock 0

/-- The open of the sample sends its order, polls once and looks for the executions, both in vain. -/
def sampleUnfilled : List (Cue Book) :=
  [.commit 0, .price 0 99 100, .clock 0,
    .answer 0 (.sent (.ok "accepted")) fun b => b.accept 0 (Trader.signalToSendChildOrder sampleSignal 50),
    .passes 0 1, .reply 0 (.executions (.ok [])), .reply 0 (.executions (.ok []))]

/-- The order is filled in part and expires; its executions are not visible yet, and its state is read. -/
def sampleSilentOpen : Run Book :=
  .play bookModel ⟨sampleDb, ⟨[]⟩, 0⟩ sampleOpen <| sampleUnfilled ++
    [.exchange fun b => ⟨b.orders.map fun o => { o with executed := 20, working := false }⟩,
      .reply 0 (.childOrders (.ok [⟨100, 20, .expired⟩]))]

theorem sampleSilentOpen_loses :
    sampleSilentOpen.Of bookModel ⟨sampleDb, ⟨[]⟩, 0⟩ sampleOpen ∧
      ¬ ∀ e, sampleSilentOpen.OpenFailed 0 e → Error.silent e = true →
        sampleSilentOpen.world.exchange.executed (sentByTask 0) = 0 := by
  refine ⟨Run.play_of _ _ _ _, fun hall => ?_⟩
  have hexecuted : ¬ sampleSilentOpen.world.exchange.executed (sentByTask 0) = 0 := by decide +kernel
  have hended : ∃ e ∈ (sampleSilentOpen.last.thread 0).failed?, Error.silent e = true := by decide +kernel
  obtain ⟨e, he, hs⟩ := hended
  exact hexecuted (hall e ⟨he, by decide +kernel⟩ hs)

/-- The order expires with nothing filled. -/
def sampleEmptyOpen : Run Book :=
  .play bookModel ⟨sampleDb, ⟨[]⟩, 0⟩ sampleOpen <| sampleUnfilled ++
    [.exchange fun b => ⟨b.orders.map fun o => { o with working := false }⟩,
      .reply 0 (.childOrders (.ok [⟨0, 0, .expired⟩]))]

theorem sampleEmptyOpen_empty : ∃ e, sampleEmptyOpen.OpenFailed 0 e ∧ Error.silent e = true ∧
    sampleEmptyOpen.world.exchange.executed (sentByTask 0) = 0 := by
  have hended : ∃ e ∈ (sampleEmptyOpen.last.thread 0).failed?, Error.silent e = true := by decide +kernel
  obtain ⟨e, he, hs⟩ := hended
  have hf : sampleEmptyOpen.OpenFailed 0 e := ⟨he, by decide +kernel⟩
  have hempty := (silent_loss_iff (fun _ ho => by cases ho) (Run.play_of _ _ _ _) rfl).mpr
    (fun _ _ _ => by decide +kernel) e hf hs
  exact ⟨e, hf, hs, hempty⟩

end AutoTrader
