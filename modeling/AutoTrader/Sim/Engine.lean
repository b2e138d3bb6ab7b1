import AutoTrader.Sim.Series

/-!
# The simulation of a script

`simulate` runs a decider over the evaluation bars of a dataset. At each bar the signal of the bar before is
executed at the open, then the protective stop is checked, and then the decider is given the state of the bar
and answers with the next signal.

A decider answers from all bar states that it was given so far. `simulateRun` also keeps those states, which
no step reads. Two rules are all that the results about runs use: `applySignal_cases` and `applyStop_cases`
say what one bar does to the position and the trades, and `runBars_rule` carries an invariant through a run.
-/

namespace AutoTrader.Sim

variable {E F : Type}

/-! ## Trades and outcomes -/

/-- Why a trade of a run was closed. -/
inductive ExitReason where
  | signal
  | protectiveStop
  | endOfData
  deriving DecidableEq, Repr

/-- A closed trade of a run. -/
structure SimTrade where
  /-- 1 for long and -1 for short. -/
  direction : Int
  entryIdx : Nat
  exitIdx : Nat
  entryMilli : Int64
  exitMilli : Int64
  pnlMilli : Int64
  reason : ExitReason
  deriving DecidableEq, Repr

/-- How a run ended. -/
inductive RunStatus where
  | ok
  | scriptError (openTime : Int) (message : Error)
  deriving DecidableEq, Repr

/-- What a run returns. -/
structure SimOutcome where
  status : RunStatus
  trades : List SimTrade
  positions : List Int
  deriving DecidableEq, Repr

/-- What the decider is given at a bar. -/
structure BarState where
  t : Nat
  position : Int
  entryPriceMilli : Int64
  barsHeld : Nat
  deriving DecidableEq, Repr

/-- An error of the decider: of the script, or one that ends the whole command. -/
inductive DeciderError (E : Type) where
  | script (message : Error)
  | fatal (e : E)

/-- The answer to the states given so far, of which the last is that of the current bar. -/
abbrev Decider (E : Type) := List BarState → Except (DeciderError E) Int

/-- The settings of a run. -/
structure SimConfig where
  protectiveStopPips : Int64

/-! ## One bar -/

/-- The profit of a trade. -/
def pnlMilli (direction : Int) (entryMilli exitMilli : Int64) : Int64 :=
  if direction = 1 then exitMilli - entryMilli else entryMilli - exitMilli

/-- A closed trade with its profit. -/
def closedTrade (direction : Int) (entryIdx exitIdx : Nat) (entryMilli exitMilli : Int64) (reason : ExitReason) :
    SimTrade where
  direction := direction
  entryIdx := entryIdx
  exitIdx := exitIdx
  entryMilli := entryMilli
  exitMilli := exitMilli
  pnlMilli := pnlMilli direction entryMilli exitMilli
  reason := reason

/-- A close is at the bid of a long and at the ask of a short. -/
def closingPrice (position : Int) (bidOpen askOpen : Int64) : Int64 := if position = 1 then bidOpen else askOpen

/-- An open is at the ask of a long and at the bid of a short. -/
def openingPrice (signal : Int) (bidOpen askOpen : Int64) : Int64 := if signal = 1 then askOpen else bidOpen

/-- The position; entry price and bar are those of the last one if there is none. -/
structure Held where
  position : Int
  entryPriceMilli : Int64
  entryIdx : Nat
  deriving DecidableEq, Repr

/-- The signal of the bar before is filled at the open. -/
def applySignalPendingFromPreviousBar (signal : Int) (t : Nat) (bar : Bar) (h : Held) (trades : List SimTrade) :
    Held × List SimTrade :=
  if signal = h.position then (h, trades)
  else
    let (position, trades) :=
      if h.position ≠ 0 then
        let exitMilli := closingPrice h.position bar.bidOpen bar.askOpen
        (0, trades ++ [closedTrade h.position h.entryIdx t h.entryPriceMilli exitMilli .signal])
      else (h.position, trades)
    if signal ≠ 0 then (⟨signal, openingPrice signal bar.bidOpen bar.askOpen, t⟩, trades)
    else (⟨position, h.entryPriceMilli, h.entryIdx⟩, trades)

/-- The price at which the protective stop lies. -/
def stopPrice (position : Int) (entryPriceMilli stopOffsetMilli : Int64) : Int64 :=
  if position = 1 then entryPriceMilli - stopOffsetMilli else entryPriceMilli + stopOffsetMilli

/-- A position whose stop lies in the bar is closed at it, or at the open beyond it. -/
def applyProtectiveStop (stopOffsetMilli : Int64) (t : Nat) (bar : Bar) (h : Held) (trades : List SimTrade) :
    Int × List SimTrade :=
  if h.position = 0 then (h.position, trades)
  else
    let stop := stopPrice h.position h.entryPriceMilli stopOffsetMilli
    let hit := if h.position = 1 then decide (bar.bidLow ≤ stop) else decide (stop ≤ bar.askHigh)
    if !hit then (h.position, trades)
    else
      let exitMilli := if h.position = 1 then min stop bar.bidOpen else max stop bar.askOpen
      (0, trades ++ [closedTrade h.position h.entryIdx t h.entryPriceMilli exitMilli .protectiveStop])

/-- The count of bars is a `u32`. -/
def buildBarState (offset t : Nat) (h : Held) : BarState where
  t := offset + t
  position := h.position
  entryPriceMilli := h.entryPriceMilli
  barsHeld := if h.position = 0 then 0 else (t - h.entryIdx) % 2 ^ 32

/-! ## The run -/

/-- The state of a run between two bars. -/
structure EngineState where
  held : Held
  pendingSignal : Option Int
  trades : List SimTrade
  positions : List Int
  /-- The states that the decider was given. -/
  given : List BarState

/-- The state before the first bar. -/
def EngineState.init : EngineState := ⟨⟨0, 0, 0⟩, none, [], [], []⟩

/-- A bar up to the call of the decider. -/
def EngineState.atBar (stopOffsetMilli : Int64) (offset t : Nat) (bar : Bar) (s : EngineState) : EngineState :=
  let (held, trades) := match s.pendingSignal with
    | some signal => applySignalPendingFromPreviousBar signal t bar s.held s.trades
    | none => (s.held, s.trades)
  let (position, trades) := applyProtectiveStop stopOffsetMilli t bar held trades
  let held := { held with position }
  { s with
    held
    trades
    positions := s.positions ++ [position]
    given := s.given ++ [buildBarState offset t held] }

/-- The error of a signal that is none of 1, -1 and 0. -/
def unsupportedSignal (signal : Int) : Error :=
  [.lit "on_bar returned ", .arg (toString signal), .lit " (expected 1, -1, or 0)"]

/-- The bars from `t` on, out of `n`. -/
def runBars (decider : Decider E) (stopOffsetMilli : Int64) (offset n : Nat) :
    List Bar → Nat → EngineState → EngineState × Except E RunStatus
  | [], _, s => (s, .ok .ok)
  | bar :: bars, t, s =>
    let s := s.atBar stopOffsetMilli offset t bar
    match decider s.given with
    | .ok signal =>
      if -1 ≤ signal ∧ signal ≤ 1 then
        runBars decider stopOffsetMilli offset n bars (t + 1)
          { s with pendingSignal := if t + 1 < n then some signal else none }
      else (s, .ok (.scriptError bar.openTime (unsupportedSignal signal)))
    | .error (.script message) => (s, .ok (.scriptError bar.openTime message))
    | .error (.fatal e) => (s, .error e)

/-- A position that is left at the end is closed at the last close. -/
def closeAtPeriodEnd (h : Held) (evalBars : List Bar) (trades : List SimTrade) : List SimTrade :=
  if h.position = 0 then trades
  else
    match evalBars.getLast? with
    | none => trades
    | some last =>
      let exitMilli := if h.position = 1 then last.bidClose else last.askClose
      trades ++ [closedTrade h.position h.entryIdx (evalBars.length - 1) h.entryPriceMilli exitMilli .endOfData]

/-- The distance of the protective stop. -/
def stopOffset (cfg : SimConfig) : Int64 := cfg.protectiveStopPips * pipMilli

/-- The states that the decider was given, and the result. -/
def simulateRun (d : Dataset F) (decider : Decider E) (cfg : SimConfig) : List BarState × Except E SimOutcome :=
  let n := d.evalBars.length
  let (s, status) := runBars decider (stopOffset cfg) d.evalStart n d.evalBars 0 .init
  (s.given, match status with
    | .ok .ok => .ok ⟨.ok, closeAtPeriodEnd s.held d.evalBars s.trades, s.positions⟩
    | .ok status => .ok ⟨status, s.trades, s.positions⟩
    | .error e => .error e)

/-- The outcome of a run. -/
def simulate (d : Dataset F) (decider : Decider E) (cfg : SimConfig) : Except E SimOutcome :=
  (simulateRun d decider cfg).2

/-! ## What one bar does -/

/-- The position after it was closed. -/
def Held.flat (h : Held) : Held := { h with position := 0 }

/-- The bar reaches the protective stop of a position. -/
def stopHit (stopOffsetMilli : Int64) (bar : Bar) (h : Held) : Bool :=
  let stop := stopPrice h.position h.entryPriceMilli stopOffsetMilli
  if h.position = 1 then decide (bar.bidLow ≤ stop) else decide (stop ≤ bar.askHigh)

/-- The trade that the signal closes at an open. -/
def closedAtOpen (t : Nat) (bar : Bar) (h : Held) : SimTrade :=
  closedTrade h.position h.entryIdx t h.entryPriceMilli (closingPrice h.position bar.bidOpen bar.askOpen) .signal

/-- The trade that the protective stop closes. -/
def closedAtStop (stopOffsetMilli : Int64) (t : Nat) (bar : Bar) (h : Held) : SimTrade :=
  let stop := stopPrice h.position h.entryPriceMilli stopOffsetMilli
  closedTrade h.position h.entryIdx t h.entryPriceMilli
    (if h.position = 1 then min stop bar.bidOpen else max stop bar.askOpen) .protectiveStop

/-- The position that a signal opens. -/
def openedAt (signal : Int) (t : Nat) (bar : Bar) : Held :=
  ⟨signal, openingPrice signal bar.bidOpen bar.askOpen, t⟩

/-- A signal keeps the position, opens one, closes it, or closes it and opens the opposite one. -/
theorem applySignal_cases (signal : Int) (t : Nat) (bar : Bar) (h : Held) (trades : List SimTrade) :
    signal = h.position ∧ applySignalPendingFromPreviousBar signal t bar h trades = (h, trades) ∨
    h.position = 0 ∧ signal ≠ 0 ∧
      applySignalPendingFromPreviousBar signal t bar h trades = (openedAt signal t bar, trades) ∨
    h.position ≠ 0 ∧ signal = 0 ∧
      applySignalPendingFromPreviousBar signal t bar h trades = (h.flat, trades ++ [closedAtOpen t bar h]) ∨
    h.position ≠ 0 ∧ signal ≠ 0 ∧ signal ≠ h.position ∧
      applySignalPendingFromPreviousBar signal t bar h trades =
        (openedAt signal t bar, trades ++ [closedAtOpen t bar h]) := by
  unfold applySignalPendingFromPreviousBar
  by_cases hs : signal = h.position
  · exact .inl ⟨hs, if_pos hs⟩
  · rw [if_neg hs]
    by_cases hp : h.position = 0
    · rw [if_neg (not_not.mpr hp)]
      have hz : signal ≠ 0 := fun hz => hs (hz.trans hp.symm)
      exact .inr (.inl ⟨hp, hz, if_pos hz⟩)
    · rw [if_pos hp]
      by_cases hz : signal = 0
      · exact .inr (.inr (.inl ⟨hp, hz, if_neg (not_not.mpr hz)⟩))
      · exact .inr (.inr (.inr ⟨hp, hz, hs, if_pos hz⟩))

/-- The stop closes the position if there is one and the bar reaches it. -/
theorem applyStop_cases (stopOffsetMilli : Int64) (t : Nat) (bar : Bar) (h : Held) (trades : List SimTrade) :
    (h.position = 0 ∨ stopHit stopOffsetMilli bar h = false) ∧
      applyProtectiveStop stopOffsetMilli t bar h trades = (h.position, trades) ∨
    h.position ≠ 0 ∧ stopHit stopOffsetMilli bar h = true ∧
      applyProtectiveStop stopOffsetMilli t bar h trades =
        (0, trades ++ [closedAtStop stopOffsetMilli t bar h]) := by
  unfold applyProtectiveStop
  by_cases hp : h.position = 0
  · exact .inl ⟨.inl hp, if_pos hp⟩
  · rw [if_neg hp]
    rcases hh : stopHit stopOffsetMilli bar h with _ | _
    · have hnot : (!stopHit stopOffsetMilli bar h) = true := by rw [hh]; rfl
      exact .inl ⟨.inr rfl, if_pos hnot⟩
    · have hnot : ¬(!stopHit stopOffsetMilli bar h) = true := by rw [hh]; decide
      exact .inr ⟨hp, rfl, if_neg hnot⟩

/-- The position and the trades after the executions at the open of a bar. -/
def EngineState.opened (t : Nat) (bar : Bar) (s : EngineState) : Held × List SimTrade :=
  match s.pendingSignal with
  | some signal => applySignalPendingFromPreviousBar signal t bar s.held s.trades
  | none => (s.held, s.trades)

section

variable (stopOffsetMilli : Int64) (offset t : Nat) (bar : Bar) (s : EngineState)

theorem atBar_held : (s.atBar stopOffsetMilli offset t bar).held =
    { (s.opened t bar).1 with
      position := (applyProtectiveStop stopOffsetMilli t bar (s.opened t bar).1 (s.opened t bar).2).1 } := rfl

theorem atBar_trades : (s.atBar stopOffsetMilli offset t bar).trades =
    (applyProtectiveStop stopOffsetMilli t bar (s.opened t bar).1 (s.opened t bar).2).2 := rfl

theorem atBar_positions : (s.atBar stopOffsetMilli offset t bar).positions =
    s.positions ++ [(s.atBar stopOffsetMilli offset t bar).held.position] := rfl

theorem atBar_given : (s.atBar stopOffsetMilli offset t bar).given =
    s.given ++ [buildBarState offset t (s.atBar stopOffsetMilli offset t bar).held] := rfl

end

/-! ## What a run does -/

/-- How a run ends that has `P` before each bar and `Q` after it. -/
def RunEnds (P Q : Nat → EngineState → Prop) (evalBars : List Bar) : EngineState × Except E RunStatus → Prop
  | (s, .ok .ok) => P evalBars.length s
  | (s, .ok (.scriptError openTime _)) => ∃ t bar, evalBars[t]? = some bar ∧ bar.openTime = openTime ∧ Q t s
  | (s, .error _) => ∃ t, t < evalBars.length ∧ Q t s

/-- The bar carries `P` to `Q`, and a signal that is supported carries `Q` to `P` before the next bar. -/
theorem runBars_rule {P Q : Nat → EngineState → Prop} {decider : Decider E} {stopOffsetMilli : Int64}
    {offset : Nat} {evalBars : List Bar}
    (hbar : ∀ t bar s, evalBars[t]? = some bar → P t s → Q t (s.atBar stopOffsetMilli offset t bar))
    (hnext : ∀ t s signal, t < evalBars.length → Q t s → decider s.given = .ok signal → -1 ≤ signal →
      signal ≤ 1 → P (t + 1) { s with pendingSignal := if t + 1 < evalBars.length then some signal else none })
    (bars : List Bar) (t : Nat) (s : EngineState) (hbars : evalBars.drop t = bars) (hp : P t s)
    (ht : t ≤ evalBars.length) :
    RunEnds P Q evalBars (runBars decider stopOffsetMilli offset evalBars.length bars t s) := by
  induction bars generalizing t s with
  | nil =>
    have hlen : t = evalBars.length := by
      have := List.drop_eq_nil_iff.mp hbars
      omega
    show P evalBars.length s
    rw [← hlen]
    exact hp
  | cons bar bars ih =>
    have hat : evalBars[t]? = some bar := by
      rw [← List.head?_drop, hbars, List.head?_cons]
    have hlt : t < evalBars.length := (List.getElem?_eq_some_iff.mp hat).1
    have hq := hbar t bar s hat hp
    show RunEnds P Q evalBars (match decider (s.atBar stopOffsetMilli offset t bar).given with
      | .ok signal => _
      | .error (.script message) => _
      | .error (.fatal e) => _)
    rcases hd : decider (s.atBar stopOffsetMilli offset t bar).given with (message | e) | signal
    · exact ⟨t, bar, hat, rfl, hq⟩
    · exact ⟨t, hlt, hq⟩
    · by_cases hs : -1 ≤ signal ∧ signal ≤ 1
      · dsimp only
        rw [if_pos hs]
        refine ih _ _ ?_ (hnext t _ signal hlt hq hd hs.1 hs.2) hlt
        rw [← List.drop_drop, hbars, List.drop_one, List.tail_cons]
      · dsimp only
        rw [if_neg hs]
        exact ⟨t, bar, hat, rfl, hq⟩

/-- A run that was not given up ends with the trades and positions of its last bar. -/
theorem simulateRun_eq_ok {d : Dataset F} {decider : Decider E} {cfg : SimConfig} {given : List BarState}
    {outcome : SimOutcome} (h : simulateRun d decider cfg = (given, .ok outcome)) :
    ∃ s, runBars decider (stopOffset cfg) d.evalStart d.evalBars.length d.evalBars 0 .init =
        (s, .ok outcome.status) ∧ given = s.given ∧ outcome.positions = s.positions ∧
      outcome.trades = if outcome.status = .ok then closeAtPeriodEnd s.held d.evalBars s.trades else s.trades := by
  rcases hrun : runBars decider (stopOffset cfg) d.evalStart d.evalBars.length d.evalBars 0 .init with
    ⟨s, e | _ | ⟨openTime, message⟩⟩
  · simp [simulateRun, hrun] at h
  all_goals
    simp only [simulateRun, hrun, Prod.mk.injEq, Except.ok.injEq] at h
    obtain ⟨rfl, rfl⟩ := h
    exact ⟨s, rfl, rfl, rfl, rfl⟩

end AutoTrader.Sim
