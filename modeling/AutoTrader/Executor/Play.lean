import AutoTrader.Executor.Runs

/-!
# Playing runs

A run of the system from a list of cues: which task goes on, and what it is answered. The database
answers what its `Tx` computes, and an answer of the exchange counts only where the model of the
exchange gives it, so every run that is played is a run of the system (`Run.play_of`).
-/

namespace AutoTrader

open Lib (Config History Input)

variable {ε : Type}

/-- An answer of the exchange. -/
inductive ApiAnswer where
  | sent (r : Except ApiError String)
  | childOrders (r : Except ApiError (List ChildOrder))
  | executions (r : Except ApiError (List Execution))
  | positions (r : Except ApiError (List ExchangePosition))
  | canceled (r : Except ApiError Unit)
  | positionId (r : Except ApiError (Option String))
  | sfd (r : Except ApiError Decimal)
  | stopPlaced (r : Except ApiError String)
  | stopStatus (r : Except ApiError StopOrderStatus)

/-- The answer, where it is one to the call. -/
def ApiAnswer.to : ApiAnswer → (c : ApiCall) → Option c.Ret
  | sent r, .sendChildOrder _ => some r
  | childOrders r, .getChildOrders _ _ => some r
  | executions r, .getExecutions _ _ => some r
  | positions r, .getPositions _ => some r
  | canceled r, .cancelChildOrder _ _ => some r
  | canceled r, .cancelStopOrder _ _ => some r
  | positionId r, .resolvePositionId _ _ _ _ => some r
  | sfd r, .fetchCloseSfd _ => some r
  | stopPlaced r, .placeStopOrder _ _ _ _ _ => some r
  | stopStatus r, .stopOrderStatus _ _ => some r
  | _, _ => none

/-- What happens next in a run that is played. -/
inductive Cue (ε : Type) where
  /-- The query of task `i` commits. -/
  | commit (i : Nat)
  /-- The query of task `i` fails. -/
  | refuse (i : Nat)
  /-- The exchange answers task `i`. -/
  | answer (i : Nat) (a : ApiAnswer) (x : ε → ε)
  | price (i : Nat) (bid ask : Decimal)
  /-- Task `i` finds no tick. -/
  | noPrice (i : Nat)
  | age (i : Nat) (secs : Option Nat)
  /-- Task `i` reads the time. -/
  | clock (i : Nat)
  | uuid (i : Nat) (id : Uuid)
  | passes (i : Nat) (n : Nat)
  /-- Microseconds pass. -/
  | wait (t : Nat)
  | exchange (x : ε → ε)

/-- An answer that leaves the exchange as it is. -/
def Cue.reply (i : Nat) (a : ApiAnswer) : Cue ε := .answer i a fun x => x

section

variable (E : ExchangeModel ε) [∀ i x c r x', Decidable (E.respond i x c r x')] [∀ x x', Decidable (E.move x x')]

/-- The input of a cue. -/
def Cue.input : Cue ε → Input Calls (World ε) Move
  | commit i => .call i fun w c => match c with
    | .db q => match q.tx.run w.now w.db with
      | .ok (a, db) => some (.ok a, { w with db })
      | .error _ => none
    | _ => none
  | refuse i => .call i fun w c => match c with
    | .db _ => some (.error [.lit "query failed"], w)
    | _ => none
  | answer i a x => .call i fun w c => match c with
    | .api c => match a.to c with
      | some r => if E.respond i w.exchange c r (x w.exchange) then some (r, { w with exchange := x w.exchange })
        else none
      | none => none
    | _ => none
  | price i bid ask => .call i fun w c => match c with
    | .latestBidAsk _ _ => some (some (bid, ask), w)
    | _ => none
  | noPrice i => .call i fun w c => match c with
    | .latestBidAsk _ _ => some (none, w)
    | _ => none
  | age i secs => .call i fun w c => match c with
    | .lastTickAge _ _ => some (secs, w)
    | _ => none
  | clock i => .call i fun w c => match c with
    | .utcNow => some (w.now, w)
    | _ => none
  | uuid i id => .call i fun w c => match c with
    | .newUuid => some (id, w)
    | _ => none
  | passes i n => .call i fun w c => match c with
    | .pollPasses => some (n, w)
    | _ => none
  | wait t => .move (.tick t) fun w => some { w with now := w.now + t }
  | exchange x => .move .exchange fun w =>
    if E.move w.exchange (x w.exchange) then some { w with exchange := x w.exchange } else none

theorem Cue.sound (x : Cue ε) : (x.input E).Sound (worldSys E) := by
  cases x with
  | commit i =>
    intro w c r w' h
    cases c with
    | db q =>
      simp only at h
      split at h
      · rename_i a db hq
        cases h
        exact ⟨db, hq, rfl⟩
      · cases h
    | _ => cases h
  | refuse i =>
    intro w c r w' h
    cases c with
    | db q => cases h; exact ⟨w.db, rfl, rfl⟩
    | _ => cases h
  | answer i a x =>
    intro w c r w' h
    cases c with
    | api c =>
      simp only at h
      split at h
      · split at h
        · rename_i hr
          cases h
          exact ⟨_, hr, rfl⟩
        · cases h
      · cases h
    | _ => cases h
  | price | noPrice | age | clock | uuid | passes =>
    intro w c r w' h
    cases c <;> cases h
    rfl
  | wait t =>
    intro w w' h
    cases h
    exact ⟨Int.natCast_nonneg t, rfl⟩
  | exchange x =>
    intro w w' h
    simp only at h
    split at h
    · rename_i hm
      cases h
      exact ⟨_, hm, rfl⟩
    · cases h

/-- The run of the tasks from `w₀` that the cues describe. -/
def Run.play (w₀ : World ε) (actors : Nat → Actor) (cues : List (Cue ε)) : Run ε :=
  Lib.play (begin w₀ actors) (cues.map (Cue.input E))

theorem Run.play_of (w₀ : World ε) (actors : Nat → Actor) (cues : List (Cue ε)) :
    (Run.play E w₀ actors cues).Of E w₀ actors := by
  refine Lib.play_valid _ _ fun x hx => ?_
  obtain ⟨cue, -, rfl⟩ := List.mem_map.mp hx
  exact cue.sound E

end

/-- An exchange that may answer anything. -/
def anyExchange : ExchangeModel Unit where
  respond _ _ _ _ _ := True
  move _ _ := True

instance (i : Nat) (x : Unit) (c : ApiCall) (r : c.Ret) (x' : Unit) : Decidable (anyExchange.respond i x c r x') :=
  .isTrue trivial

instance (x x' : Unit) : Decidable (anyExchange.move x x') := .isTrue trivial

/-! ## A small installation -/

/-- A trader of the sample account. -/
def sampleTrader (dryRun : Bool) : Trader where
  exchange := .bitflyerCfd
  accountId := 1
  requiresClosePositionId := false
  positionSizer := ⟨fun _ => some 1, 0, fun _ => none⟩
  liquidationMarginLevel := 1
  dryRun := dryRun

/-- The sample account. -/
def sampleAccount : TradingAccount where
  id := 1
  live := true
  exchange := .bitflyerCfd
  strategy := "donchian"
  initialBalance := 1000
  currentBalance := 1000
  leverage := 10
  createdAt := 0
  active := true

/-- The signal of a sample open. -/
def sampleSignal : Signal where
  strategyName := "donchian"
  pair := "FX_BTC_JPY"
  direction := .long
  stopLossPct := 1 / 100
  takeProfitPct := none
  allocationPct := 1 / 2
  maxHoldUntil := none

/-- One account, and no trades. -/
def sampleDb : Db where
  trades := .empty
  accounts := ⟨[sampleAccount], by decide⟩
  accountEvents := []
  notifications := []

/-- A long position of that account that is open. -/
def sampleTrade : TradeRow where
  id := 7
  accountId := 1
  strategyName := "donchian"
  pair := "FX_BTC_JPY"
  exchange := .bitflyerCfd
  direction := .long
  entryPrice := 100
  exitPrice := none
  stopLoss := 99
  takeProfit := none
  quantity := 2
  leverage := 10
  fees := 0
  entryAt := 0
  exitAt := none
  pnlAmount := none
  exitReason := none
  status := .open
  maxHoldUntil := none
  exchangePositionId := none
  stopOrderId := some "stop"
  closingStartedAt := none

/-- The account with that trade. -/
def sampleOpenDb : Db where
  trades := ⟨[sampleTrade], by decide⟩
  accounts := ⟨[{ sampleAccount with currentBalance := 980 }], by decide⟩
  accountEvents := [⟨1, 7, .marginLock, -20, 980, 0⟩]
  notifications := []

end AutoTrader
