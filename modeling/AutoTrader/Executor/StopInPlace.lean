import AutoTrader.Executor.CloseOrders

/-!
# The stop order of a trade whose close failed

A close attempt that fails gives the lock back, and the trade is open again. Its protective stop order
must still be in place then, working or executed. The code does not see to it: the stop guard cancels the
stop before the order is sent, nothing that can fail after it places a new one, and the trade is left
without (`sampleLostStop_gone`). `stop_in_place_iff` says when it holds: nobody else ended the stop, and the
attempt either was never told that the stop is active, or the request to cancel it that it then sent had no
effect. That the guard asks for the cancellation as soon as it is told, and never otherwise, is the protocol
`guarding`, which every close attempt keeps to (`closePosition_guarding`).

`stopModel` is an exchange that keeps stop orders. An active stop may execute, expire or be rejected at any
time. A request to cancel one may have been carried out although the answer is an error, and does nothing to
a stop that is not active. The answers to questions about a stop are true.
-/

namespace AutoTrader

open Lib (Config History Label Prog Protocol Step)
open Lib.Prog (Meets MeetsE Only)
open List (Forall₂)

/-! ## Stop orders at the exchange -/

/-- A stop order on the exchange. -/
structure StopOrder where
  id : String
  status : StopOrderStatus
  deriving DecidableEq, Repr

/-- What can become of a stop order without a request: while it is active it may execute, expire or be
rejected. -/
def StopOrder.Moves (o o' : StopOrder) : Prop := o'.id = o.id ∧ (o'.status = o.status ∨ o.status = .active)

instance StopOrder.decidableMoves (o o' : StopOrder) : Decidable (o.Moves o') := inferInstanceAs (Decidable (_ ∧ _))

/-- A cancel of the order `id`. -/
def StopOrder.cancel (id : String) (o : StopOrder) : StopOrder :=
  if o.id = id ∧ o.status = .active then { o with status := .gone } else o

/-- The stop orders at the exchange, newest first. -/
structure StopBook where
  stops : List StopOrder
  deriving DecidableEq, Repr

namespace StopBook

/-- The status of an order. -/
def status (b : StopBook) (id : String) : Option StopOrderStatus :=
  (b.stops.find? fun o => o.id = id).map StopOrder.status

/-- The stop order is active or was executed. -/
def InPlace (b : StopBook) (id : String) : Prop := ∃ s ∈ b.status id, s ≠ .gone

instance (b : StopBook) (id : String) : Decidable (b.InPlace id) :=
  inferInstanceAs (Decidable (∃ s ∈ b.status id, s ≠ .gone))

/-- The cancel reaches the exchange. -/
def cancel (b : StopBook) (id : String) : StopBook := ⟨b.stops.map (StopOrder.cancel id)⟩

/-- A stop order is placed. -/
def place (b : StopBook) (id : String) : StopBook := ⟨⟨id, .active⟩ :: b.stops⟩

/-- A stop order with a new id was placed. -/
def Placed (b b' : StopBook) : Prop := ∃ o ∈ b'.stops.head?, b.status o.id = none ∧ b' = b.place o.id

instance (b b' : StopBook) : Decidable (b.Placed b') := inferInstanceAs (Decidable (∃ o ∈ b'.stops.head?, _))

/-- The orders have moved on their own. -/
def Moves (b b' : StopBook) : Prop := Forall₂ StopOrder.Moves b.stops b'.stops

instance (b b' : StopBook) : Decidable (b.Moves b') := inferInstanceAs (Decidable (Forall₂ _ _ _))

/-- What the exchange answers to each call. -/
def respond (b : StopBook) (c : ApiCall) (r : c.Ret) (b' : StopBook) : Prop :=
  match c, r with
  | .placeStopOrder _ _ _ _ _, .ok id => b.status id = none ∧ b' = b.place id
  | .placeStopOrder _ _ _ _ _, .error _ => b.Placed b' ∨ b' = b
  | .cancelStopOrder _ id, .ok _ => b' = b.cancel id
  | .cancelStopOrder _ id, .error _ => b' = b.cancel id ∨ b' = b
  | .stopOrderStatus _ id, .ok s => (∀ s' ∈ b.status id, s = s') ∧ b' = b
  | _, _ => b' = b

instance (b : StopBook) (c : ApiCall) (r : c.Ret) (b' : StopBook) : Decidable (b.respond c r b') := by
  induction c using ApiCall.casesOn <;> induction r using Except.casesOn <;> dsimp only [respond] <;> infer_instance

end StopBook

/-- An exchange with stop orders. -/
def stopModel : ExchangeModel StopBook where
  respond := fun _ b c r b' => b.respond c r b'
  move := StopBook.Moves

instance (i : Nat) (b : StopBook) (c : ApiCall) (r : c.Ret) (b' : StopBook) :
    Decidable (stopModel.respond i b c r b') :=
  inferInstanceAs (Decidable (b.respond c r b'))

instance (b b' : StopBook) : Decidable (stopModel.move b b') := inferInstanceAs (Decidable (b.Moves b'))

namespace StopBook

variable {b b' : StopBook} {id stopId : String} {s : StopOrderStatus}

theorem status_cons (o : StopOrder) (os : List StopOrder) (id : String) :
    status ⟨o :: os⟩ id = if o.id = id then some o.status else status ⟨os⟩ id := by
  unfold status
  rw [List.find?_cons]
  by_cases h : o.id = id <;> simp [h]

theorem status_cancel (b : StopBook) (stopId id : String) :
    (b.cancel stopId).status id =
      if stopId = id ∧ b.status id = some .active then some .gone else b.status id := by
  obtain ⟨os⟩ := b
  induction os with
  | nil => simp [cancel, status]
  | cons o os ih =>
    have hcancel : cancel ⟨o :: os⟩ stopId = ⟨o.cancel stopId :: (cancel ⟨os⟩ stopId).stops⟩ := rfl
    have hid : (o.cancel stopId).id = o.id := by
      unfold StopOrder.cancel
      split <;> rfl
    rw [hcancel, status_cons, status_cons, hid]
    by_cases h : o.id = id
    · rw [if_pos h, if_pos h, StopOrder.cancel, h]
      by_cases hs : o.status = .active
      · by_cases he : id = stopId
        · simp [he, hs]
        · simp [he, Ne.symm he]
      · simp [hs]
    · rw [if_neg h, if_neg h]
      exact ih

theorem Moves.status (h : b.Moves b') (hs : b.status id = some s) :
    ∃ s', b'.status id = some s' ∧ (s' = s ∨ s = .active) := by
  obtain ⟨os⟩ := b
  obtain ⟨os'⟩ := b'
  simp only [Moves] at h
  induction h with
  | nil => cases hs
  | @cons o o' os os' ho _ ih =>
    rw [status_cons] at hs ⊢
    rw [ho.1]
    by_cases hid : o.id = id
    · rw [if_pos hid] at hs ⊢
      obtain rfl := Option.some.inj hs
      exact ⟨o'.status, rfl, ho.2⟩
    · rw [if_neg hid] at hs ⊢
      exact ih hs

theorem status_place (hnew : b.status stopId = none) (hs : b.status id = some s) :
    (b.place stopId).status id = some s := by
  rw [place, status_cons]
  by_cases h : stopId = id
  · rw [h, hs] at hnew
    cases hnew
  · rw [if_neg h]
    exact hs

/-- What a call can do to the status of a stop order. -/
theorem respond_status {c : ApiCall} {r : c.Ret} (h : b.respond c r b') (hs : b.status id = some s) :
    ∃ s', b'.status id = some s' ∧ (s' = s ∨ s = .active) := by
  have same : b' = b → ∃ s', b'.status id = some s' ∧ (s' = s ∨ s = .active) := by
    rintro rfl
    exact ⟨s, hs, .inl rfl⟩
  have placed : ∀ {stopId}, b.status stopId = none → b' = b.place stopId →
      ∃ s', b'.status id = some s' ∧ (s' = s ∨ s = .active) := by
    rintro stopId hnew rfl
    exact ⟨s, status_place hnew hs, .inl rfl⟩
  have cancelled : ∀ {stopId}, b' = b.cancel stopId → ∃ s', b'.status id = some s' ∧ (s' = s ∨ s = .active) := by
    rintro stopId rfl
    rw [status_cancel, hs]
    by_cases hc : stopId = id ∧ s = .active
    · exact ⟨.gone, by simp [hc], .inr hc.2⟩
    · exact ⟨s, if_neg fun h => hc ⟨h.1, Option.some.inj h.2⟩, .inl rfl⟩
  unfold respond at h
  split at h
  · exact placed h.1 h.2
  · rcases h with ⟨o, -, hnew, rfl⟩ | h
    · exact placed hnew rfl
    · exact same h
  · exact cancelled h
  · rcases h with h | h
    · exact cancelled h
    · exact same h
  · exact same h.2
  · exact same h

end StopBook

/-! ## The stop order of an attempt -/

/-- The stop order that an attempt found active when it took its lock. -/
structure StopWatch where
  stopId : String
  /-- A request of the attempt to cancel it was carried out since. -/
  cancelled : Bool
  /-- It ended without the attempt: it expired or was rejected, or another task cancelled it. -/
  lost : Bool
  deriving DecidableEq, Repr

/-- The watch that begins when a close attempt takes the lock. -/
def StopBook.watchOn (b : StopBook) (trade : Trade) : Option StopWatch :=
  match trade.stopOrderId with
  | some id => if b.status id = some .active then some ⟨id, false, false⟩ else none
  | none => none

/-- The trade whose lock attempt `i` took in this step. -/
def lockTaken (i : Nat) : Label Calls Move → Option Trade
  | .call j (.db (.acquireCloseLock _ _)) (.ok (some lock)) => if j = i then some lock.trade else none
  | _ => none

/-- The stop order was active and is gone. -/
def StopBook.ended (id : String) (b b' : StopBook) : Bool :=
  decide (b.status id = some .active ∧ b'.status id = some .gone)

/-- In this step attempt `i` asks the exchange to cancel the stop order. -/
def cancelAsked (i : Nat) (id : String) : Label Calls Move → Bool
  | .call j (.api (.cancelStopOrder _ stopId)) _ => decide (j = i ∧ stopId = id)
  | _ => false

/-- What has become of the stop order after a step of the exchange from `b` to `b'`. -/
def StopWatch.after (i : Nat) (b : StopBook) (l : Label Calls Move) (b' : StopBook) (w : StopWatch) : StopWatch :=
  { w with
    cancelled := w.cancelled || StopBook.ended w.stopId b b' && cancelAsked i w.stopId l
    lost := w.lost || StopBook.ended w.stopId b b' && !cancelAsked i w.stopId l }

/-- The attempt is past its stop guard. -/
def ClosePhase.passed : ClosePhase → Bool
  | .ready _ _ | .done => true
  | _ => false

/-- What a close attempt knows of its stop order. -/
inductive StopPath where
  /-- It was not told that the stop is active. -/
  | untold
  | told
  /-- It was told, and asked to cancel the stop. -/
  | asked
  deriving DecidableEq, Repr

/-- Told that its stop order is active, an attempt asks to cancel it before it does anything else, and it asks
only then. -/
def guarding : Protocol Calls StopPath where
  allowed
    | .told, .api (.cancelStopOrder _ _) => True
    | .told, _ => False
    | _, .api (.cancelStopOrder _ _) => False
    | _, _ => True
  next
    | .untold, .api (.stopOrderStatus _ _), .ok .active => .told
    | .told, .api (.cancelStopOrder _ _), _ => .asked
    | p, _, _ => p

namespace Run

/-- What the attempt of task `i` has been told of the stop. -/
def stopPath (h : Run StopBook) (i : Nat) : StopPath := h.phases guarding (fun _ => .untold) i

/-- The watch over the stop of the last attempt. -/
def watch (h : Run StopBook) (i : Nat) : Option StopWatch :=
  h.ghost (fun w c l c' => match lockTaken i l with
    | some trade => c.world.exchange.watchOn trade
    | none => w.map (StopWatch.after i c.world.exchange l c'.world.exchange)) none

end Run

section

variable {actors : Nat → Actor} {w₀ : World StopBook} {h : Run StopBook} {l : Label Calls Move}
  {c : Config Calls (World StopBook) (Except Error Outcome)} {i : Nat} {uuid : Uuid} {w : StopWatch}

@[simp] theorem StopWatch.stopId_after (i : Nat) (b : StopBook) (l : Label Calls Move) (b' : StopBook)
    (w : StopWatch) : (w.after i b l b').stopId = w.stopId := rfl

/-- The watch sees every end of the stop order. -/
theorem StopWatch.ended_after (i : Nat) (b : StopBook) (l : Label Calls Move) (b' : StopBook) (w : StopWatch) :
    ((w.after i b l b').cancelled || (w.after i b l b').lost) =
      (w.cancelled || w.lost || StopBook.ended w.stopId b b') := by
  simp only [after]
  cases StopBook.ended w.stopId b b' <;> cases cancelAsked i w.stopId l <;> simp [Bool.or_comm]

@[simp] theorem StopWatch.after_self (i : Nat) (b : StopBook) (l : Label Calls Move) (w : StopWatch) :
    w.after i b l b = w := by
  have hended : StopBook.ended w.stopId b b = false := by
    refine decide_eq_false fun h => ?_
    cases h.1.symm.trans h.2
  simp [after, hended]

/-- What a step can do to the status of a stop order. -/
theorem stop_status_step {stopId : String} {s : StopOrderStatus} (hs : Step (worldSys stopModel) h.last l c)
    (hst : h.world.exchange.status stopId = some s) : ∃ s', c.world.exchange.status stopId = some s' ∧
      (s' = .gone ↔ s = .gone ∨ StopBook.ended stopId h.world.exchange c.world.exchange = true) ∧
      (s' = .active → s = .active) := by
  have hstep : ∃ s', c.world.exchange.status stopId = some s' ∧ (s' = s ∨ s = .active) := by
    rcases Run.exchange_cases hs with ⟨j, q, r, -, hresp, -⟩ | ⟨-, hmove, -⟩ | ⟨hx, -⟩
    · exact StopBook.respond_status hresp hst
    · exact StopBook.Moves.status hmove hst
    · exact ⟨s, by rw [hx, hst], .inl rfl⟩
  obtain ⟨s', hs', hcase⟩ := hstep
  refine ⟨s', hs', ?_, fun ha => hcase.elim (fun he => he ▸ ha) id⟩
  rw [StopBook.ended, hst, hs', decide_eq_true_iff, Option.some.injEq, Option.some.injEq]
  rcases hcase with rfl | rfl
  · exact ⟨.inl, fun hor => hor.elim id And.right⟩
  · exact ⟨fun he => .inr ⟨rfl, he⟩, fun hor => hor.elim (fun he => by cases he) And.right⟩

/-- Where the watch of an attempt comes from. -/
theorem Run.watch_cases (hw : Run.watch (.step h l c) i = some w) :
    (∃ v, h.watch i = some v ∧ lockTaken i l = none ∧ w = v.after i h.world.exchange l c.world.exchange) ∨
    (∃ trade, lockTaken i l = some trade ∧ trade.stopOrderId = some w.stopId ∧
      h.world.exchange.status w.stopId = some .active ∧ w.cancelled = false ∧ w.lost = false) := by
  simp only [watch, History.ghost] at hw
  split at hw
  · rename_i trade ht
    refine .inr ⟨trade, ht, ?_⟩
    simp only [StopBook.watchOn] at hw
    split at hw
    · rename_i id hid
      split at hw
      · rename_i ha
        obtain rfl := Option.some.inj hw
        exact ⟨hid, ha, rfl, rfl⟩
      · cases hw
    · cases hw
  · rename_i hn
    obtain ⟨v, hv, rfl⟩ := Option.map_eq_some_iff.mp hw
    exact .inl ⟨v, hv, hn, rfl⟩

theorem lockTaken_quiet (hq : quietStep l) : lockTaken i l = none := by
  cases l with
  | move m => rfl
  | call j q r => cases q <;> first | rfl | exact hq.elim

/-- A lock is taken by a query, which leaves the exchange as it is. -/
theorem lockTaken_exchange {trade : Trade} (hs : Step (worldSys stopModel) h.last l c)
    (hl : lockTaken i l = some trade) : c.world.exchange = h.world.exchange := by
  rcases Run.exchange_cases hs with ⟨j, q, r, rfl, -⟩ | ⟨rfl, -⟩ | ⟨hx, -⟩
  · cases hl
  · cases hl
  · exact hx

/-- The attempt that takes the lock of a trade. -/
theorem lockTaken_acquisition {lock : CloseLockAcquired} (hl : acquisition uuid l = some (i, lock)) :
    lockTaken i l = some lock.trade := by
  unfold acquisition at hl
  split at hl
  · split at hl
    · cases hl
      exact if_pos rfl
    · cases hl
  · cases hl

theorem lockTaken_ne {j : Nat} {q : Calls.Call} {r : Calls.Ret q} (hij : i ≠ j) :
    lockTaken i (.call j q r) = none := by
  unfold lockTaken
  split
  · rename_i he
    cases he
    exact if_neg (Ne.symm hij)
  · rfl

/-- What is known of the stop order an attempt watches. -/
structure Guarded (actors : Nat → Actor) (i : Nat) (h : Run StopBook) : Prop where
  status : ∀ w, h.watch i = some w → ∃ s, h.world.exchange.status w.stopId = some s ∧
    (s = .gone ↔ (w.cancelled || w.lost) = true)
  trade : ∀ w, h.watch i = some w → ∀ trade, (h.closePhase i).trade? = some trade →
    trade.stopOrderId = some w.stopId
  passed : ∀ w, h.watch i = some w → (∃ trade, h.stage actors i = .holding trade) → (h.closePhase i).passed →
    h.world.exchange.status w.stopId ≠ some .active

/-- The status of a watched stop order after a step. -/
theorem Guarded.status_step (hg : Guarded actors i h) (hs : Step (worldSys stopModel) h.last l c)
    (hw : Run.watch (.step h l c) i = some w) :
    ∃ s, c.world.exchange.status w.stopId = some s ∧ (s = .gone ↔ (w.cancelled || w.lost) = true) := by
  rcases Run.watch_cases hw with ⟨v, hv, -, rfl⟩ | ⟨trade, hl, -, ha, hc, hlost⟩
  · obtain ⟨s, hst, hgone⟩ := hg.status v hv
    obtain ⟨s', hs', hiff, -⟩ := stop_status_step hs hst
    refine ⟨s', hs', ?_⟩
    rw [hiff, hgone, StopWatch.ended_after, Bool.or_eq_true (v.cancelled || v.lost)]
  · refine ⟨.active, (lockTaken_exchange hs hl) ▸ ha, ?_⟩
    rw [hc, hlost]
    exact ⟨StopOrderStatus.noConfusion, Bool.noConfusion⟩

/-- A stop order that is not active does not become active. -/
theorem Guarded.inactive_step (hg : Guarded actors i h) (hs : Step (worldSys stopModel) h.last l c)
    (hw : h.watch i = some w) (hna : h.world.exchange.status w.stopId ≠ some .active) :
    c.world.exchange.status w.stopId ≠ some .active := by
  obtain ⟨s, hst, -⟩ := hg.status w hw
  obtain ⟨s', hs', -, hact⟩ := stop_status_step hs hst
  intro he
  rw [hs'] at he
  exact hna (by rw [hst, hact (Option.some.inj he)])

/-- A watched stop order is in place iff nothing has ended it. -/
theorem Guarded.inPlace_iff (hg : Guarded actors i h) (hw : h.watch i = some w) :
    h.world.exchange.InPlace w.stopId ↔ w.cancelled = false ∧ w.lost = false := by
  obtain ⟨s, hst, hgone⟩ := hg.status w hw
  rw [StopBook.InPlace, hst, ← Bool.or_eq_false_iff]
  constructor
  · rintro ⟨s', hs', hne⟩
    obtain rfl := Option.some.inj hs'
    exact Bool.eq_false_iff.mpr fun hc => hne (hgone.mpr hc)
  · intro hc
    refine ⟨s, rfl, fun he => ?_⟩
    rw [hgone.mp he] at hc
    cases hc

/-- A step that leaves the attempt where it is. -/
theorem Guarded.keep (hg : Guarded actors i h) (hs : Step (worldSys stopModel) h.last l c)
    (hphase : Run.closePhase (.step h l c) i = h.closePhase i)
    (hstage : Run.stage actors (.step h l c : Run StopBook) i = h.stage actors i) (hl : lockTaken i l = none) :
    Guarded actors i (.step h l c) := by
  refine ⟨fun w hw => hg.status_step hs hw, fun w hw trade ht => ?_, fun w hw ht hp => ?_⟩ <;>
    rcases Run.watch_cases hw with ⟨v, hv, -, rfl⟩ | ⟨t, ht', -⟩
  · rw [hphase] at ht
    exact hg.trade v hv trade ht
  · rw [hl] at ht'
    cases ht'
  · rw [hphase] at hp
    rw [hstage] at ht
    exact hg.inactive_step (w := v) hs hv (hg.passed v hv ht hp)
  · rw [hl] at ht'
    cases ht'

/-- The attempt passes its stop guard only when the stop order is not active. -/
theorem Guarded.pass {q : ApiCall} {r : q.Ret} (hg : Guarded actors i h)
    (hs : Step (worldSys stopModel) h.last (.call i (.api q) r) c) (hw : h.watch i = some w)
    (hallowed : closing.allowed (h.closePhase i) (.api q)) (hstage : ∃ trade, h.stage actors i = .holding trade)
    (hpass : (closing.next (h.closePhase i) (.api q) r).passed) :
    c.world.exchange.status w.stopId ≠ some .active := by
  have hresp : h.world.exchange.respond q r c.world.exchange := Run.exchange_api hs
  by_cases hp : (h.closePhase i).passed
  · exact hg.inactive_step hs hw (hg.passed w hw hstage hp)
  have htrade := hg.trade w hw
  have hna := hg.inactive_step hs hw
  obtain ⟨s, hst, -⟩ := hg.status w hw
  generalize h.closePhase i = p at hallowed hpass hp htrade
  cases p with
  | ready | done => exact absurd rfl hp
  | idle => cases q <;> first | exact hallowed.elim | cases hpass
  | recovering trade =>
    cases q with
    | getPositions pair =>
      cases r with
      | ok positions =>
        simp only [closing, ClosePhase.afterPositions] at hpass
        split at hpass <;> cases hpass
      | error e => cases hpass
    | _ => first | exact hallowed.elim | cases hpass
  | sized trade size =>
    have hid := htrade trade rfl
    cases q with
    | sendChildOrder req =>
      rw [hallowed.1] at hid
      cases hid
    | stopOrderStatus pair stopId =>
      obtain rfl : stopId = w.stopId := Option.some.inj (hallowed.symm.trans hid)
      rcases r with e | (_ | _ | _)
      · cases hpass
      · cases hpass
      · cases hpass
      · refine hna fun ha => ?_
        cases hresp.1 .active ha
    | cancelStopOrder pair stopId =>
      obtain rfl : stopId = w.stopId := Option.some.inj (hallowed.symm.trans hid)
      cases r with
      | ok _ =>
        have hx : c.world.exchange = h.world.exchange.cancel w.stopId := hresp
        rw [hx, StopBook.status_cancel]
        split
        · intro he
          cases he
        · rename_i hn
          exact fun ha => hn ⟨rfl, ha⟩
      | error e => cases hpass
    | _ => cases hpass

theorem Guarded.api {q : ApiCall} {r : q.Ret} (hg : Guarded actors i h)
    (hs : Step (worldSys stopModel) h.last (.call i (.api q) r) c)
    (hallowed : closing.allowed (h.closePhase i) (.api q)) : Guarded actors i (.step h (.call i (.api q) r) c) := by
  have hphase : Run.closePhase (.step h (.call i (.api q) r) c) i = closing.next (h.closePhase i) (.api q) r :=
    History.phases_call ..
  have hl : lockTaken i (.call i (.api q) r) = none := lockTaken_quiet trivial
  refine ⟨fun w hw => hg.status_step hs hw, fun w hw trade ht => ?_, fun w hw ht hp => ?_⟩ <;>
    rcases Run.watch_cases hw with ⟨v, hv, -, rfl⟩ | ⟨t, ht', -⟩
  · rw [hphase] at ht
    rcases closing_next_quiet (c := .api q) trivial r with hn | hn
    · exact hg.trade v hv trade (hn ▸ ht)
    · rw [hn] at ht
      cases ht
  · rw [hl] at ht'
    cases ht'
  · rw [hphase] at hp
    rw [Run.stage_quiet h i (.api q) trivial] at ht
    exact hg.pass (w := v) hs hv hallowed ht hp
  · rw [hl] at ht'
    cases ht'

/-- A query of the attempt takes the lock, or ends its work on the trade. -/
theorem Guarded.query {q : Query} {r : Except Error q.Ok} (hi : (actors i).closes uuid) (hg : Guarded actors i h)
    (hs : Step (worldSys stopModel) h.last (.call i (.db q) r) c) (hq : (actors i).MayAsk (h.stage actors i) q)
    (hallowed : closing.allowed (h.closePhase i) (.db q)) : Guarded actors i (.step h (.call i (.db q) r) c) := by
  have hphase : Run.closePhase (.step h (.call i (.db q) r) c) i = closing.next (h.closePhase i) (.db q) r :=
    History.phases_call ..
  have hst : Run.stage actors (.step h (.call i (.db q) r) c : Run StopBook) i = (h.stage actors i).after q r := by
    rw [Run.stage_db, Function.update_self]
  have hcases := Run.closing_query hi hq hallowed i r
  refine ⟨fun w hw => hg.status_step hs hw, fun w hw trade ht => ?_, fun w hw ht hp => ?_⟩
  · rw [hphase] at ht
    rcases hcases with ⟨-, lock, hlk, hn, -⟩ | ⟨hn, -⟩
    · rw [hn, ClosePhase.trade?_afterLock] at ht
      obtain rfl := Option.some.inj ht
      have hl := lockTaken_acquisition hlk
      rcases Run.watch_cases hw with ⟨v, -, hnone, -⟩ | ⟨t, ht', hid, -⟩
      · rw [hl] at hnone
        cases hnone
      · rw [hl] at ht'
        rw [Option.some.inj ht']
        exact hid
    · rw [hn] at ht
      cases ht
  · rw [hst] at ht
    rw [hphase] at hp
    rcases hcases with ⟨-, lock, -, hn, -⟩ | ⟨-, hover⟩
    · rw [hn, ClosePhase.afterLock] at hp
      split at hp <;> cases hp
    · obtain ⟨trade, ht⟩ := ht
      exact absurd ht (hover trade)

/-- A look at the ticks or the clock. -/
theorem Guarded.reads {q : Call} {r : q.Ret} (hg : Guarded actors i h)
    (hs : Step (worldSys stopModel) h.last (.call i q r) c) (hq : q.reads) :
    Guarded actors i (.step h (.call i q r) c) := by
  have hquiet : q.quiet := Call.quiet_of_reads q hq
  refine hg.keep hs ?_ (by rw [Run.stage_quiet h i q hquiet]) (lockTaken_quiet hquiet)
  exact (History.phases_call ..).trans ((closing_reads q hq).2 r)

theorem Guarded.step (hi : (actors i).closes uuid) (hv : h.Of stopModel w₀ actors)
    (hs : Step (worldSys stopModel) h.last l c) (hg : Guarded actors i h) : Guarded actors i (.step h l c) := by
  cases l with
  | move m => exact hg.keep hs rfl rfl rfl
  | call j q r =>
    by_cases hij : i = j
    · subst hij
      have hallowed : closing.allowed (h.closePhase i) q := hv.closing_allowed hs hi
      cases q with
      | db q => exact hg.query hi hs (hv.mayAsk hs) hallowed
      | api q => exact hg.api hs hallowed
      | _ => exact hg.reads hs trivial
    · exact hg.keep hs (History.phases_call_ne _ _ _ _ hij) (Run.stage_call_ne h _ _ _ hij) (lockTaken_ne hij)

theorem Run.Of.guarded (hi : (actors i).closes uuid) (hv : h.Of stopModel w₀ actors) : Guarded actors i h := by
  refine History.Valid.invariant (P := fun _ _ _ => True) (J := Guarded actors i) ?_
    (fun h l c hv _ hg hs _ => hg.step hi hv hs) hv (History.Steps.of_forall (fun _ _ _ => trivial) h)
  exact ⟨fun _ hw => (by cases hw), fun _ hw => (by cases hw), fun _ hw => (by cases hw)⟩

/-- The row of the trade keeps the id of the stop order that the attempt watches. -/
theorem Run.Of.watched_row (hi : (actors i).closes uuid) : ∀ {h : Run StopBook}, h.Of stopModel w₀ actors →
    ∀ {w}, h.watch i = some w → ∃ r, h.world.db.trades.find? uuid = some r ∧ r.stopOrderId = some w.stopId
  | .start _, _, _, hw => by cases hw
  | .step h l c, hv, w, hw => by
    rw [History.world_step]
    rcases Run.watch_cases hw with ⟨v, hv', -, rfl⟩ | ⟨trade, hl, hid, -⟩
    · obtain ⟨r, hr, hrid⟩ := Run.Of.watched_row hi hv.1 hv'
      rcases Run.world_cases hv.2 with ⟨j, q, a, -, hwrote, -⟩ | ⟨j, q, e, -, hw'⟩ | ⟨j, lev, -, hw'⟩ | ⟨hdb, -⟩
      · obtain ⟨r', hr', hrow⟩ := Query.wrote_row hwrote hr
        exact ⟨r', hr', (Trade.stopOrderId_eq hrow.terms).trans hrid⟩
      · exact ⟨r, by rw [hw']; exact hr, hrid⟩
      · exact ⟨r, by rw [hw', setLeverage_trades]; exact hr, hrid⟩
      · exact ⟨r, by rw [hdb]; exact hr, hrid⟩
    · unfold lockTaken at hl
      split at hl
      · rename_i j tradeId accountId lock
        split at hl
        · rename_i hij
          subst hij
          obtain rfl := Option.some.inj hl
          have hmay := Run.Of.mayAsk hv.1 hv.2
          have htrade : tradeId = uuid := by
            generalize Run.stage actors h j = s at hmay
            generalize actors j = a at hmay hi
            cases hmay
            exact of_decide_eq_true hi
          subst htrade
          rcases Run.world_cases hv.2 with ⟨k, q, a, he, hwrote, -⟩ | ⟨k, q, e, he, -⟩ | ⟨k, lev, he, -⟩ | ⟨-, hq, -⟩
          · cases he
            have hacq : acquisition tradeId (.call j (.db (.acquireCloseLock tradeId accountId)) (.ok (some lock))) =
                some (j, lock) := if_pos rfl
            obtain ⟨-, _, -, hrow⟩ := acquisition_ok hacq
            obtain ⟨r, -, -, hlock, hr'⟩ := hrow hwrote
            exact ⟨_, hr', by rw [← hid, hlock]⟩
          · cases he
          · cases he
          · exact hq.elim
        · cases hl
      · cases hl

end

/-! ## The stop guard -/

theorem untold_ne : StopPath.untold ≠ .told := by decide

theorem asked_ne : StopPath.asked ≠ .told := by decide

theorem guarding_reads (p : StopPath) (hp : p ≠ .told) (c : Call) (hc : c.reads) :
    guarding.allowed p c ∧ ∀ r, guarding.next p c r = p := by
  cases p with
  | told => exact absurd rfl hp
  | _ =>
    cases c with
    | db q => exact hc.elim
    | api c => cases c <;> first | exact hc.elim | exact ⟨trivial, fun _ => rfl⟩
    | _ => exact ⟨trivial, fun _ => rfl⟩

namespace Trader

variable (t : Trader) (trade : Trade)

theorem guarding_of_reads {α : Type} {p : StopPath} (hp : p ≠ .told) {x : Exec α} (hx : Only Call.reads x.run) :
    MeetsE guarding p x (fun p _ => p ≠ .told) fun p _ => p ≠ .told :=
  MeetsE.of_only hx (guarding_reads p hp) (fun _ => hp) fun _ => hp

theorem stopGuardBeforeClose_guarding :
    MeetsE guarding .untold (stopGuardBeforeClose trade) (fun p _ => p ≠ .told) fun p _ => p ≠ .told := by
  simp only [stopGuardBeforeClose]
  split
  · refine meets_api trivial fun r => ?_
    rcases r with e | (_ | ⟨price, commission⟩ | _)
    · exact MeetsE.throw untold_ne
    · refine meets_api trivial fun r => ?_
      cases r with
      | ok _ => exact MeetsE.pure asked_ne
      | error e =>
        refine meets_api trivial fun r => ?_
        rcases r with e | (_ | ⟨price, commission⟩ | _)
        · exact MeetsE.throw asked_ne
        · exact MeetsE.throw asked_ne
        · exact MeetsE.pure asked_ne
        · exact MeetsE.pure asked_ne
    · exact MeetsE.pure untold_ne
    · exact MeetsE.pure untold_ne
  · exact MeetsE.pure untold_ne

theorem fillCloseLive_guarding (size : Decimal) :
    MeetsE guarding .untold (t.fillCloseLive trade size) (fun p _ => p ≠ .told) fun p _ => p ≠ .told := by
  refine MeetsE.bind ((stopGuardBeforeClose_guarding trade).mono (fun p fill hp => ?_) fun _ _ hp => hp)
  cases fill with
  | some fill => exact MeetsE.pure hp
  | none =>
    refine MeetsE.bind ?_
    simp only [ensureClosePositionIdPresent]
    split
    · exact MeetsE.throw hp
    have hsend : ∀ req, guarding.allowed p (.api (.sendChildOrder req)) ∧
        ∀ r, guarding.next p (.api (.sendChildOrder req)) r = p := by
      intro req
      cases p <;> first | exact absurd rfl hp | exact ⟨trivial, fun _ => rfl⟩
    refine MeetsE.pure (MeetsE.bind (meets_apiOrThrow (hsend _).1 (fun acceptanceId => ?_) fun e => ?_))
    · rw [(hsend _).2]
      exact MeetsE.bind ((guarding_of_reads hp (reads_pollExecutions _ _)).mono (fun _ _ hq => MeetsE.pure hq)
        fun _ _ hq => hq)
    · rw [(hsend _).2]
      exact hp

theorem fillClose_guarding :
    MeetsE guarding .untold (t.fillClose trade) (fun p _ => p ≠ .told) fun p _ => p ≠ .told := by
  simp only [fillClose]
  split
  · exact MeetsE.bind ((guarding_of_reads untold_ne (t.reads_latestBidAsk _)).mono (fun _ _ hp => MeetsE.pure hp)
      fun _ _ hp => hp)
  · exact t.fillCloseLive_guarding trade trade.quantity

theorem fillCloseWithStaleRecovery_guarding :
    MeetsE guarding .untold (t.fillCloseWithStaleRecovery trade) (fun p _ => p ≠ .told) fun p _ => p ≠ .told := by
  have hsum : MeetsE guarding .untold (sumExchangePositionSize trade) (fun p _ => p = .untold)
      fun p _ => p ≠ .told := by
    refine MeetsE.bind (meets_apiOrThrow trivial (fun positions => ?_) fun _ => untold_ne)
    dsimp only
    split
    · exact MeetsE.pure rfl
    · exact MeetsE.throw untold_ne
  refine MeetsE.bind (hsum.mono (fun p r hp => ?_) fun _ _ hp => hp)
  subst hp
  obtain ⟨total, has⟩ := r
  dsimp only
  split
  · exact MeetsE.bind ((guarding_of_reads untold_ne (t.reads_resolveStaleExitPrice trade)).mono
      (fun _ _ hp => MeetsE.pure hp) fun _ _ hp => hp)
  · split
    · exact MeetsE.bind ((t.fillClose_guarding trade).mono (fun _ _ hp => MeetsE.pure hp) fun _ _ hp => hp)
    · split
      · have hsize : MeetsE guarding .untold (t.fillCloseSize trade total) (fun p _ => p ≠ .told)
            fun p _ => p ≠ .told := by
          simp only [fillCloseSize]
          split
          · exact t.fillClose_guarding trade
          · exact t.fillCloseLive_guarding trade total
        exact MeetsE.bind (hsize.mono (fun _ _ hp => MeetsE.pure hp) fun _ _ hp => hp)
      · exact MeetsE.throw untold_ne

/-- Every query but the first comes when the attempt is not in its stop guard. -/
theorem guarding_query {p : StopPath} (hp : p ≠ .told) (q : Query) :
    guarding.allowed p (.db q) ∧ ∀ r, guarding.next p (.db q) r = p := by
  cases p <;> first | exact absurd rfl hp | exact ⟨trivial, fun _ => rfl⟩

theorem closeAndReleaseLockOnError_guarding (uuid : Uuid) (stale : Bool) :
    MeetsE guarding .untold (t.closeAndReleaseLockOnError uuid trade stale) (fun p _ => p ≠ .told)
      fun _ _ => True := by
  have hfill : MeetsE guarding .untold
      (if (!t.dryRun && stale) = true then t.fillCloseWithStaleRecovery trade
        else do
          let fill ← t.fillClose trade
          return (fill.1, fill.2, false)) (fun p _ => p ≠ .told) fun p _ => p ≠ .told := by
    split
    · exact t.fillCloseWithStaleRecovery_guarding trade
    · exact MeetsE.bind ((t.fillClose_guarding trade).mono (fun _ _ hp => MeetsE.pure hp) fun _ _ hp => hp)
  refine MeetsE.bind (MeetsE.attempt (hfill.mono (fun p fill hp => MeetsE.pure hp) fun p e hp => ?_))
  exact MeetsE.bind (MeetsE.attempt (meets_query (guarding_query hp _).1 (fun _ => MeetsE.throw trivial)
    fun _ => MeetsE.throw trivial))

/-- A close attempt asks to cancel its stop order as soon as it is told that it is active, and never otherwise. -/
theorem closePosition_guarding (uuid : Uuid) (exitReason : ExitReason) :
    Meets guarding .untold (t.closePosition uuid exitReason).run fun _ _ => True := by
  refine MeetsE.run (MeetsE.bind (MeetsE.bind (meets_query trivial (fun lock => ?_) fun _ => trivial)))
  cases lock with
  | none => exact MeetsE.throw trivial
  | some lock =>
    refine MeetsE.pure (MeetsE.bindLift_of_only (t.reads_liveSfdSnapshot _) (guarding_reads _ untold_ne) fun sfd => ?_)
    refine MeetsE.bind ((t.closeAndReleaseLockOnError_guarding lock.trade uuid _).mono (fun p fill hp => ?_)
      fun _ _ _ => trivial)
    refine MeetsE.bindLift_of_only reads_utcNow (guarding_reads p hp) fun exitAt => ?_
    exact MeetsE.bind (meets_query (guarding_query hp _).1 (fun _ => MeetsE.pure trivial) fun _ => trivial)

end Trader

section

variable {actors : Nat → Actor} {w₀ : World StopBook} {h : Run StopBook} {l : Label Calls Move}
  {c : Config Calls (World StopBook) (Except Error Outcome)} {i : Nat} {uuid : Uuid} {w : StopWatch}

/-- Every close attempt keeps to `guarding`. -/
theorem Run.Of.guarding_allowed (hv : h.Of stopModel w₀ actors) (hi : (actors i).closes uuid) {q : Calls.Call}
    {r : Calls.Ret q} (hs : Step (worldSys stopModel) h.last (.call i q r) c) :
    guarding.allowed (h.stopPath i) q := by
  have hstart : Meets guarding .untold (actors i).prog.run fun _ _ => True := by
    generalize actors i = a at hi
    cases a with
    | closePosition t uuid exitReason =>
      exact MeetsE.run (MeetsE.map (t.closePosition_guarding uuid exitReason |> Meets.mono
        fun _ r _ => by cases r <;> trivial))
    | _ => cases hi
  exact @History.Valid.allowed _ _ _ _ _ _ _ guarding (fun _ => .untold) _ i hstart h hv q r c hs

/-- A request to cancel the stop order leads to the phase `asked`. -/
theorem guarding_cancel {p : StopPath} {q : Calls.Call} {r : Calls.Ret q} {id : String} (ha : guarding.allowed p q)
    (hn : guarding.next p q r ≠ .asked) : cancelAsked i id (.call i q r) = false := by
  unfold cancelAsked
  split
  · rename_i he
    cases he
    cases p with
    | told => exact absurd rfl hn
    | _ => exact ha.elim
  · rfl

theorem cancelAsked_ne {j : Nat} {q : Calls.Call} {r : Calls.Ret q} {id : String} (hij : i ≠ j) :
    cancelAsked i id (.call j q r) = false := by
  unfold cancelAsked
  split
  · rename_i he
    cases he
    exact decide_eq_false fun h => hij h.1.symm
  · rfl

/-- Before an attempt that has not asked asks, it has not. -/
theorem Run.Of.unasked_step (hv : h.Of stopModel w₀ actors) (hi : (actors i).closes uuid)
    (hs : Step (worldSys stopModel) h.last l c) (hp : Run.stopPath (.step h l c) i ≠ .asked) (id : String) :
    cancelAsked i id l = false ∧ h.stopPath i ≠ .asked := by
  cases l with
  | move m => exact ⟨rfl, hp⟩
  | call j q r =>
    by_cases hij : i = j
    · subst hij
      have hnext : Run.stopPath (.step h (.call i q r) c) i = guarding.next (h.stopPath i) q r :=
        History.phases_call ..
      rw [hnext] at hp
      exact ⟨guarding_cancel (hv.guarding_allowed hi hs) hp, fun he => hp (by rw [he]; rfl)⟩
    · exact ⟨cancelAsked_ne hij, fun he => hp ((History.phases_call_ne _ _ _ _ hij).trans he)⟩

/-- A stop order is cancelled by the attempt only after it asked. -/
theorem Run.Of.cancelled_asked (hi : (actors i).closes uuid) : ∀ {h : Run StopBook}, h.Of stopModel w₀ actors →
    ∀ {w}, h.watch i = some w → h.stopPath i ≠ .asked → w.cancelled = false
  | .start _, _, _, hw, _ => by cases hw
  | .step h l c, hv, w, hw, hp => by
    rcases Run.watch_cases hw with ⟨v, hv', -, rfl⟩ | ⟨trade, -, -, -, hc, -⟩
    · obtain ⟨hasked, hp'⟩ := Run.Of.unasked_step hv.1 hi hv.2 hp v.stopId
      have hcancelled : v.cancelled = false := Run.Of.cancelled_asked hi hv.1 hv' hp'
      simp only [StopWatch.after, hcancelled, hasked, Bool.and_false, Bool.or_false]
    · exact hc

end

/-! ## After the release -/

/-- After the release of its lock an attempt calls nothing any more. -/
def returning : Protocol Calls Bool where
  allowed released _ := released = false
  next
    | _, .db (.releaseCloseLock _), _ => true
    | released, _, _ => released

/-- After the release the attempt fails. -/
theorem Trader.closePosition_returning (t : Trader) (uuid : Uuid) (exitReason : ExitReason) :
    Meets returning false (t.closePosition uuid exitReason).run fun released r => released → ∃ e, r = .error e := by
  have quiet : ∀ c : Call, c.quiet → returning.allowed false c ∧ ∀ r, returning.next false c r = false := by
    intro c hc
    cases c <;> first | exact ⟨rfl, fun _ => rfl⟩ | exact hc.elim
  refine MeetsE.run (MeetsE.bind (MeetsE.bind (meets_query rfl (fun lock => ?_) fun e he => ⟨e, rfl⟩)))
  cases lock with
  | none => exact MeetsE.throw fun _ => ⟨_, rfl⟩
  | some lock =>
    refine MeetsE.pure (MeetsE.bindLift_of_only (t.quiet_liveSfdSnapshot _) quiet fun sfd => ?_)
    have hclose : MeetsE returning false (t.closeAndReleaseLockOnError uuid lock.trade lock.wasStaleRecovery)
        (fun released _ => released = false) fun _ _ => True := by
      refine MeetsE.bind (MeetsE.attempt (MeetsE.of_only ?_ quiet (fun fill => MeetsE.pure rfl) fun e => ?_))
      · split
        · exact t.quiet_fillCloseWithStaleRecovery _
        · exact Lib.Prog.OnlyE.bind (t.quiet_fillClose _) fun _ => trivial
      · exact MeetsE.bind (MeetsE.attempt
          (meets_query rfl (fun _ => MeetsE.throw trivial) fun _ => MeetsE.throw trivial))
    refine MeetsE.bind (hclose.mono (fun released fill hr => ?_) fun _ e _ _ => ⟨e, rfl⟩)
    subst hr
    refine MeetsE.bindLift_of_only quiet_utcNow quiet fun exitAt => ?_
    exact MeetsE.bind (meets_query rfl (fun _ => MeetsE.pure fun he => (by cases he)) fun e _ => ⟨e, rfl⟩)

/-- The release of its lock is the last call of an attempt, which returns an error. -/
theorem Run.Of.returned {actors : Nat → Actor} {w₀ : World StopBook} {h : Run StopBook} {i : Nat} {uuid id : Uuid}
    {r : Except Error Unit} {c : Config Calls (World StopBook) (Except Error Outcome)}
    (hv : h.Of stopModel w₀ actors) (hi : (actors i).closes uuid)
    (hs : Step (worldSys stopModel) h.last (.call i (.db (.releaseCloseLock id)) r) c) :
    ∃ e, c.thread i = .done (.error e) := by
  have hstart : Meets returning false (actors i).prog.run fun released r => released → ∃ e, r = .error e := by
    generalize actors i = a at hi
    cases a with
    | closePosition t uuid exitReason =>
      refine MeetsE.run (MeetsE.map ((t.closePosition_returning uuid exitReason).mono fun released r hr => ?_))
      cases r with
      | ok trade => exact fun h => (by obtain ⟨e, he⟩ := hr h; cases he)
      | error e => exact fun _ => ⟨e, rfl⟩
    | _ => cases hi
  have hmeets := @History.Valid.meets _ _ _ _ _ _ _ returning (fun _ => false) _ i hstart (.step h _ c) ⟨hv, hs⟩
  rw [History.phases_call, History.last_step,
    show ∀ b, returning.next b (.db (.releaseCloseLock id)) r = true from fun b => by cases b <;> rfl] at hmeets
  generalize c.thread i = x at hmeets
  cases x with
  | done r =>
    obtain ⟨e, rfl⟩ := hmeets rfl
    exact ⟨e, rfl⟩
  | call q k => cases hmeets.1

/-! ## The stop order of a failed close -/

/-- When an attempt that found the stop order of its trade active gives the lock back, the stop is in place. -/
def StopKept (actors : Nat → Actor) (uuid : Uuid) (h : Run StopBook) (l : Label Calls Move)
    (c : Config Calls (World StopBook) (Except Error Outcome)) : Prop :=
  ∀ i ∈ releasedBy uuid l, (actors i).closes uuid → ∀ w ∈ h.watch i, c.world.exchange.InPlace w.stopId

/-- Since the attempt took its lock nobody else ended that stop order, and the attempt either was not told that
it is active, or its request to cancel it had no effect. -/
def StopSpared (actors : Nat → Actor) (uuid : Uuid) (h : Run StopBook) (l : Label Calls Move)
    (_ : Config Calls (World StopBook) (Except Error Outcome)) : Prop :=
  ∀ i ∈ releasedBy uuid l, (actors i).closes uuid → ∀ w ∈ h.watch i,
    w.lost = false ∧ (h.stopPath i = .untold ∨ h.stopPath i = .asked ∧ w.cancelled = false)

instance (actors : Nat → Actor) (uuid : Uuid) (h : Run StopBook) (l : Label Calls Move)
    (c : Config Calls (World StopBook) (Except Error Outcome)) : Decidable (StopSpared actors uuid h l c) :=
  inferInstanceAs (Decidable (∀ i ∈ releasedBy uuid l, (actors i).closes uuid → _))

/-- How a close attempt ends that gives the lock back: with an error, on a trade that keeps the stop order it
had, which is not active any more when the attempt was past its stop guard. -/
structure FailedClose (uuid : Uuid) (h : Run StopBook) (c : Config Calls (World StopBook) (Except Error Outcome))
    (i : Nat) (w : StopWatch) : Prop where
  returned : ∃ e, c.thread i = .done (.error e)
  row : ∃ r, c.world.db.trades.find? uuid = some r ∧ r.stopOrderId = some w.stopId
  passed : (h.closePhase i).passed → c.world.exchange.status w.stopId ≠ some .active

section

variable {actors : Nat → Actor} {w₀ : World StopBook} {h : Run StopBook} {uuid : Uuid} {i : Nat} {w : StopWatch}
  {l : Label Calls Move} {c : Config Calls (World StopBook) (Except Error Outcome)}

/-- A release of the lock is a query, after which the exchange is as it was. -/
theorem release_step (hs : Step (worldSys stopModel) h.last l c) (hr : releasedBy uuid l = some i) :
    (∃ r, l = .call i (.db (.releaseCloseLock uuid)) r) ∧ c.world.exchange = h.world.exchange := by
  have hl : ∃ r, l = .call i (.db (.releaseCloseLock uuid)) r := by
    unfold releasedBy at hr
    split at hr
    · rename_i j tradeId r
      split at hr
      · rename_i hid
        obtain rfl := Option.some.inj hr
        exact ⟨.ok r, by rw [hid]⟩
      · cases hr
    · cases hr
  obtain ⟨r, rfl⟩ := hl
  refine ⟨⟨r, rfl⟩, ?_⟩
  exact Run.exchange_db hs

/-- A close attempt that gives the lock back holds it. -/
theorem Run.Of.releases (hv : h.Of stopModel w₀ actors) (hi : (actors i).closes uuid) {id : Uuid}
    {r : Except Error Unit} (hs : Step (worldSys stopModel) h.last (.call i (.db (.releaseCloseLock id)) r) c) :
    ∃ trade, h.stage actors i = .holding trade := by
  have hmay := Run.Of.mayAsk hv hs
  generalize Run.stage actors h i = s at hmay
  generalize actors i = a at hmay hi
  cases hmay with
  | unlock => exact ⟨_, rfl⟩
  | release => cases hi

theorem Run.Of.failedClose (hv : h.Of stopModel w₀ actors) (hs : Step (worldSys stopModel) h.last l c)
    (hr : releasedBy uuid l = some i) (hi : (actors i).closes uuid) (hw : h.watch i = some w) :
    (c.world.exchange.InPlace w.stopId ↔
      w.lost = false ∧ (h.stopPath i = .untold ∨ h.stopPath i = .asked ∧ w.cancelled = false)) ∧
      FailedClose uuid h c i w := by
  obtain ⟨⟨r, rfl⟩, hx⟩ := release_step hs hr
  have hg : Guarded actors i h := Run.Of.guarded hi hv
  refine ⟨?_, hv.returned hi hs, ?_, fun hp => ?_⟩
  · have htold : h.stopPath i ≠ .told := fun he => by
      have hallowed := hv.guarding_allowed hi hs
      rw [he] at hallowed
      exact hallowed
    have huncancelled : h.stopPath i = .untold → w.cancelled = false :=
      fun he => hv.cancelled_asked hi hw (by rw [he]; decide)
    rw [hx, hg.inPlace_iff hw]
    cases hp : h.stopPath i with
    | untold => simp [huncancelled hp]
    | told => exact absurd hp htold
    | asked => simp [and_comm]
  · have hw' : Run.watch (.step h (.call i (.db (.releaseCloseLock uuid)) r) c) i = some w := by
      simp only [Run.watch, History.ghost] at hw ⊢
      rw [show lockTaken i (.call i (.db (.releaseCloseLock uuid)) r) = none from rfl, hw]
      have hlast : h.last.world.exchange = c.world.exchange := hx.symm
      simp [hlast]
    exact Run.Of.watched_row (h := .step h _ c) hi ⟨hv, hs⟩ hw'
  · rw [hx]
    exact hg.passed w hw (hv.releases hi hs) hp

/-- In every run of any tasks: a close attempt that gives the lock back has failed, and it leaves the stop order
of its trade in place iff nobody else ended the stop, and the attempt was not told that the stop is active or
asked to cancel it without effect. -/
theorem stop_in_place_iff (hv : h.Of stopModel w₀ actors) : h.Steps fun h l c =>
    (StopKept actors uuid h l c ↔ StopSpared actors uuid h l c) ∧
      ∀ i ∈ releasedBy uuid l, (actors i).closes uuid → ∀ w ∈ Run.watch h i, FailedClose uuid h c i w := by
  induction h with
  | start c => exact trivial
  | step h l c ih =>
    refine ⟨ih hv.1, ?_, fun i hr hi w hw => (Run.Of.failedClose hv.1 hv.2 hr hi hw).2⟩
    have key : ∀ i ∈ releasedBy uuid l, (actors i).closes uuid → ∀ w ∈ Run.watch h i,
        (c.world.exchange.InPlace w.stopId ↔
          w.lost = false ∧ (Run.stopPath h i = .untold ∨ Run.stopPath h i = .asked ∧ w.cancelled = false)) :=
      fun i hr hi w hw => (Run.Of.failedClose hv.1 hv.2 hr hi hw).1
    exact ⟨fun hk i hr hi w hw => (key i hr hi w hw).mp (hk i hr hi w hw),
      fun hn i hr hi w hw => (key i hr hi w hw).mpr (hn i hr hi w hw)⟩

end

/-! ## A lost stop order -/

/-- The stop order of the sample trade. -/
def sampleStops : StopBook := ⟨[⟨"stop", .active⟩]⟩

/-- The stop is cancelled, the order is refused, and the lock is given back. -/
def sampleLostStop : Run StopBook :=
  .play stopModel ⟨sampleOpenDb, sampleStops, 0⟩ sampleClosers
    [.commit 0, .reply 0 (.sfd (.ok 0)), .reply 0 (.stopStatus (.ok .active)),
      .answer 0 (.canceled (.ok ())) fun b => b.cancel "stop", .reply 0 (.sent (.error "rejected")), .commit 0]

/-- The close has failed and the trade is open again, without its stop. -/
theorem sampleLostStop_gone : sampleLostStop.Of stopModel ⟨sampleOpenDb, sampleStops, 0⟩ sampleClosers ∧
    sampleStops.status "stop" = some .active ∧ (∃ e, sampleLostStop.last.thread 0 = .done (.error e)) ∧
    (∃ r ∈ sampleLostStop.world.db.trades.find? 7, r.status = .open ∧ r.stopOrderId = some "stop") ∧
    ¬ sampleLostStop.world.exchange.InPlace "stop" := by
  have hended : ∃ e ∈ (sampleLostStop.last.thread 0).failed?, e = e := by decide +kernel
  obtain ⟨e, he, -⟩ := hended
  exact ⟨Run.play_of _ _ _ _, by decide, ⟨e, Prog.failed?_eq_some.mp he⟩, by decide +kernel, by decide +kernel⟩

/-- The exchange does not answer the first attempt's question about the stop; it refuses to cancel it for the
second. Both give the lock back. -/
def sampleKeptStop : Run StopBook :=
  .play stopModel ⟨sampleOpenDb, sampleStops, 0⟩ sampleClosers
    [.commit 0, .reply 0 (.sfd (.ok 0)), .reply 0 (.stopStatus (.error "timeout")), .commit 0,
      .commit 1, .reply 1 (.sfd (.ok 0)), .reply 1 (.stopStatus (.ok .active)),
      .reply 1 (.canceled (.error "busy")), .reply 1 (.stopStatus (.ok .active)), .commit 1]

theorem sampleKeptStop_kept : sampleKeptStop.Steps (StopKept sampleClosers 7) := by
  have hrun : sampleKeptStop.Of stopModel ⟨sampleOpenDb, sampleStops, 0⟩ sampleClosers := Run.play_of _ _ _ _
  have hspared : sampleKeptStop.Steps (StopSpared sampleClosers 7) := by decide +kernel
  exact ((@stop_in_place_iff _ _ _ 7 hrun).mono fun _ _ _ h => h.1.mpr).mp hspared

end AutoTrader
