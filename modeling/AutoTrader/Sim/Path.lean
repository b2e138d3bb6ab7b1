import AutoTrader.Sim.Engine

/-!
# Trades and positions of a run

The trades of a run, with the position that a failed run leaves open, are stays in the market. `Describes` says
that they are the path of the positions: they follow each other in time, and at each bar there is a position
just when one stay covers the bar. `path_of_run` has this for every run. The bars that a position was held for
are counted in 32 bits, which `bars_held_wraps` shows to matter for a position held longer than that.
-/

namespace AutoTrader.Sim

variable {E F : Type}

/-! ## Stays -/

/-- A position from its entry on. -/
structure Stay where
  direction : Int
  entryIdx : Nat
  entryMilli : Int64
  deriving DecidableEq, Repr

/-- The stay of a trade. -/
def SimTrade.stay (trade : SimTrade) : Stay := ⟨trade.direction, trade.entryIdx, trade.entryMilli⟩

/-- The trade is open after the bar: it was not closed at its open or by the stop. -/
def SimTrade.covers (trade : SimTrade) (t : Nat) : Bool :=
  decide (trade.entryIdx ≤ t) &&
    (decide (t < trade.exitIdx) || (decide (t = trade.exitIdx) && decide (trade.reason = .endOfData)))

/-- The stay of the position that is held. -/
def Held.stay (h : Held) : Option Stay :=
  if h.position = 0 then none else some ⟨h.position, h.entryIdx, h.entryPriceMilli⟩

/-- The trades that cover a bar, and the position still open if it does. -/
def staysAt (trades : List SimTrade) (still : Option Stay) (t : Nat) : List Stay :=
  (trades.filter (·.covers t)).map SimTrade.stay ++ still.toList.filter fun y => decide (y.entryIdx ≤ t)

/-- The positions of the bars and the states given at them are the path of the trades and of the position still
open, where a position held from bar `i` to bar `t` counts `heldFor (t - i)` bars. -/
structure Describes (heldFor : Nat → Nat) (offset : Nat) (trades : List SimTrade) (still : Option Stay)
    (positions : List Int) (given : List BarState) : Prop where
  ordered : trades.Pairwise fun a b => a.exitIdx ≤ b.entryIdx
  forward : ∀ trade ∈ trades, 1 ≤ trade.entryIdx ∧ trade.entryIdx ≤ trade.exitIdx
  last : ∀ (i : Nat) (trade : SimTrade), trades[i]? = some trade → trade.reason = .endOfData → i + 1 = trades.length
  covered : ∀ (t : Nat) (p : Int), positions[t]? = some p → ∀ direction : Int, direction = 1 ∨ direction = -1 →
    (p = direction ↔
      ((staysAt trades still t).filter fun y => decide (y.direction = direction)).length = 1)
  all_given : given.length = positions.length
  state : ∀ (t : Nat) (p : Int), positions[t]? = some p → ∃ state, given[t]? = some state ∧
    state.t = offset + t ∧ state.position = p ∧
    (p ≠ 0 → ∃ stay, staysAt trades still t = [stay] ∧ stay.direction = p ∧
      state.entryPriceMilli = stay.entryMilli ∧ state.barsHeld = heldFor (t - stay.entryIdx))

/-! ## Closing and opening -/

/-- The trades so far follow each other and have ended, and the position was opened after them. -/
structure Tracked (t : Nat) (h : Held) (trades : List SimTrade) : Prop where
  ordered : trades.Pairwise fun a b => a.exitIdx ≤ b.entryIdx
  forward : ∀ trade ∈ trades, 1 ≤ trade.entryIdx ∧ trade.entryIdx ≤ trade.exitIdx
  ended : ∀ trade ∈ trades, trade.exitIdx ≤ t ∧ trade.reason ≠ .endOfData
  held : h.position ≠ 0 → (h.position = 1 ∨ h.position = -1) ∧ 1 ≤ h.entryIdx ∧ h.entryIdx ≤ t ∧
    ∀ trade ∈ trades, trade.exitIdx ≤ h.entryIdx

/-- From one position and trades to others at bar `t`: what covers the bars before it stays the same. -/
structure Extends (t : Nat) (h : Held) (trades : List SimTrade) (h' : Held) (trades' : List SimTrade) : Prop where
  tracked : Tracked t h' trades'
  before : ∀ i, i < t → staysAt trades' h'.stay i = staysAt trades h.stay i

theorem Extends.refl {t : Nat} {h : Held} {trades : List SimTrade} (ht : Tracked t h trades) :
    Extends t h trades h trades :=
  ⟨ht, fun _ _ => rfl⟩

theorem Extends.trans {t : Nat} {h₁ h₂ h₃ : Held} {trades₁ trades₂ trades₃ : List SimTrade}
    (h₁₂ : Extends t h₁ trades₁ h₂ trades₂) (h₂₃ : Extends t h₂ trades₂ h₃ trades₃) :
    Extends t h₁ trades₁ h₃ trades₃ :=
  ⟨h₂₃.tracked, fun i hi => (h₂₃.before i hi).trans (h₁₂.before i hi)⟩

theorem Held.stay_of_ne {h : Held} (hp : h.position ≠ 0) :
    h.stay = some ⟨h.position, h.entryIdx, h.entryPriceMilli⟩ :=
  if_neg hp

theorem Held.stay_of_eq {h : Held} (hp : h.position = 0) : h.stay = none := if_pos hp

theorem SimTrade.covers_of_lt {trade : SimTrade} {i : Nat}
    (hi : i < trade.exitIdx ∨ i = trade.exitIdx ∧ trade.reason = .endOfData) :
    trade.covers i = decide (trade.entryIdx ≤ i) := by
  rcases hi with hi | ⟨hi, hr⟩
  · simp [SimTrade.covers, hi]
  · simp [SimTrade.covers, hi, hr]

/-- A trade covers the bars before its exit that the position covered. -/
theorem staysAt_closed (trades : List SimTrade) {trade : SimTrade} {i : Nat}
    (hi : i < trade.exitIdx ∨ i = trade.exitIdx ∧ trade.reason = .endOfData) :
    staysAt (trades ++ [trade]) none i = staysAt trades (some trade.stay) i := by
  have hcov := SimTrade.covers_of_lt hi
  by_cases hle : trade.entryIdx ≤ i
  · simp [staysAt, List.filter_append, hcov, hle, SimTrade.stay]
  · simp [staysAt, List.filter_append, hcov, hle, SimTrade.stay]

theorem Tracked.close {t : Nat} {h : Held} {trades : List SimTrade} (ht : Tracked t h trades) (hp : h.position ≠ 0)
    (exitMilli : Int64) {reason : ExitReason} (hr : reason ≠ .endOfData) :
    Extends t h trades h.flat
      (trades ++ [closedTrade h.position h.entryIdx t h.entryPriceMilli exitMilli reason]) := by
  obtain ⟨-, hge, hle, hafter⟩ := ht.held hp
  refine ⟨⟨?_, ?_, ?_, fun hz => absurd rfl hz⟩, fun i hi => ?_⟩
  · refine List.pairwise_append.mpr ⟨ht.ordered, List.pairwise_singleton _ _, fun a ha b hb => ?_⟩
    rw [List.mem_singleton.mp hb]
    exact hafter a ha
  · intro trade htr
    rcases List.mem_append.mp htr with htr | htr
    · exact ht.forward trade htr
    · rw [List.mem_singleton.mp htr]
      exact ⟨hge, hle⟩
  · intro trade htr
    rcases List.mem_append.mp htr with htr | htr
    · exact ht.ended trade htr
    · rw [List.mem_singleton.mp htr]
      exact ⟨le_refl t, hr⟩
  · rw [Held.stay_of_ne hp]
    exact staysAt_closed trades (.inl hi)

theorem Tracked.enter {t : Nat} {h : Held} {trades : List SimTrade} (ht : Tracked t h trades) (hp : h.position = 0)
    {signal : Int} (hs : signal = 1 ∨ signal = -1) (bar : Bar) (h1 : 1 ≤ t) :
    Extends t h trades (openedAt signal t bar) trades := by
  have hz : (openedAt signal t bar).position ≠ 0 := by
    show signal ≠ 0
    omega
  refine ⟨⟨ht.ordered, ht.forward, ht.ended, fun _ => ⟨hs, h1, le_refl t, fun trade htr => (ht.ended trade htr).1⟩⟩, ?_⟩
  intro i hi
  rw [staysAt, staysAt, Held.stay_of_eq hp, Held.stay_of_ne hz]
  simp [openedAt, hi]

theorem Tracked.mono {t u : Nat} (htu : t ≤ u) {h : Held} {trades : List SimTrade} (ht : Tracked t h trades) :
    Tracked u h trades where
  ordered := ht.ordered
  forward := ht.forward
  ended := fun trade htr => ⟨(ht.ended trade htr).1.trans htu, (ht.ended trade htr).2⟩
  held := fun hp => by
    obtain ⟨hd, hge, hle, hafter⟩ := ht.held hp
    exact ⟨hd, hge, hle.trans htu, hafter⟩

/-- At the bar itself only the open position is left. -/
theorem Tracked.staysAt_now {t : Nat} {h : Held} {trades : List SimTrade} (ht : Tracked t h trades) :
    staysAt trades h.stay t = h.stay.toList := by
  have hnone : trades.filter (·.covers t) = [] := by
    refine List.filter_eq_nil_iff.mpr fun trade htr => ?_
    obtain ⟨hle, hr⟩ := ht.ended trade htr
    simp [SimTrade.covers, hr, Nat.not_lt.mpr hle]
  rw [staysAt, hnone]
  by_cases hp : h.position = 0
  · rw [Held.stay_of_eq hp]
    rfl
  · have hle := (ht.held hp).2.2.1
    rw [Held.stay_of_ne hp]
    simp [hle]

/-! ## The bars of a run -/

theorem applySignal_extends {t : Nat} {h : Held} {trades : List SimTrade} (ht : Tracked t h trades) (bar : Bar)
    {signal : Int} (hs : -1 ≤ signal ∧ signal ≤ 1) (h1 : 1 ≤ t) :
    Extends t h trades (applySignalPendingFromPreviousBar signal t bar h trades).1
      (applySignalPendingFromPreviousBar signal t bar h trades).2 := by
  rcases applySignal_cases signal t bar h trades with
    ⟨-, heq⟩ | ⟨hp, hz, heq⟩ | ⟨hp, -, heq⟩ | ⟨hp, hz, -, heq⟩
  · rw [heq]
    exact .refl ht
  · rw [heq]
    exact ht.enter hp (by omega) bar h1
  · rw [heq]
    exact ht.close hp _ (by decide)
  · rw [heq]
    have hclosed : Extends t h trades h.flat (trades ++ [closedAtOpen t bar h]) := ht.close hp _ (by decide)
    exact hclosed.trans (hclosed.tracked.enter rfl (by omega) bar h1)

theorem applyStop_extends {t : Nat} {h : Held} {trades : List SimTrade} (ht : Tracked t h trades) (bar : Bar)
    (stopOffsetMilli : Int64) :
    Extends t h trades { h with position := (applyProtectiveStop stopOffsetMilli t bar h trades).1 }
      (applyProtectiveStop stopOffsetMilli t bar h trades).2 := by
  rcases applyStop_cases stopOffsetMilli t bar h trades with ⟨-, heq⟩ | ⟨hp, -, heq⟩
  · rw [heq]
    exact .refl ht
  · rw [heq]
    exact ht.close hp _ (by decide)

/-- The state of the bar is that of what covers it. -/
def Shown (offset : Nat) (stays : List Stay) (i : Nat) (p : Option Int) (state : Option BarState) : Prop :=
  (p = some 0 ∧ stays = [] ∧ ∃ e, state = some ⟨offset + i, 0, e, 0⟩) ∨
    ∃ stay, stays = [stay] ∧ (stay.direction = 1 ∨ stay.direction = -1) ∧ p = some stay.direction ∧
      state = some ⟨offset + i, stay.direction, stay.entryMilli, (i - stay.entryIdx) % 2 ^ 32⟩

/-- The first `t` bars were shown as the path is, up to bar `at`. -/
structure Reflects (offset t «at» : Nat) (s : EngineState) : Prop where
  tracked : Tracked «at» s.held s.trades
  length : s.positions.length = t
  all_given : s.given.length = t
  shown : ∀ i, i < t → Shown offset (staysAt s.trades s.held.stay i) i s.positions[i]? s.given[i]?

theorem Reflects.init (offset : Nat) : Reflects offset 0 0 .init where
  tracked := ⟨.nil, by simp [EngineState.init], by simp [EngineState.init], fun hp => absurd rfl hp⟩
  length := rfl
  all_given := rfl
  shown := fun i hi => absurd hi (Nat.not_lt_zero i)

theorem atBar_extends (stopOffsetMilli : Int64) (offset : Nat) (bar : Bar) {t : Nat} {s : EngineState}
    (ht : Tracked t s.held s.trades)
    (hs : ∀ signal, s.pendingSignal = some signal → (-1 ≤ signal ∧ signal ≤ 1) ∧ 1 ≤ t) :
    Extends t s.held s.trades (s.atBar stopOffsetMilli offset t bar).held
      (s.atBar stopOffsetMilli offset t bar).trades := by
  have hopened : Extends t s.held s.trades (s.opened t bar).1 (s.opened t bar).2 := by
    unfold EngineState.opened
    rcases hsig : s.pendingSignal with _ | signal
    · exact .refl ht
    · exact applySignal_extends ht bar (hs signal hsig).1 (hs signal hsig).2
  exact hopened.trans (applyStop_extends hopened.tracked bar stopOffsetMilli)

theorem Tracked.shown {offset t : Nat} {h : Held} {trades : List SimTrade} (ht : Tracked t h trades) :
    Shown offset (staysAt trades h.stay t) t (some h.position) (some (buildBarState offset t h)) := by
  rw [ht.staysAt_now]
  by_cases hp : h.position = 0
  · refine .inl ⟨by rw [hp], by rw [Held.stay_of_eq hp]; rfl, h.entryPriceMilli, ?_⟩
    rw [buildBarState, if_pos hp, hp]
  · refine .inr ⟨_, by rw [Held.stay_of_ne hp]; rfl, (ht.held hp).1, rfl, ?_⟩
    rw [buildBarState, if_neg hp]

theorem Reflects.atBar {offset t : Nat} {s : EngineState} (hr : Reflects offset t (t - 1) s)
    (stopOffsetMilli : Int64) (bar : Bar)
    (hs : ∀ signal, s.pendingSignal = some signal → (-1 ≤ signal ∧ signal ≤ 1) ∧ 1 ≤ t) :
    Reflects offset (t + 1) t (s.atBar stopOffsetMilli offset t bar) := by
  have hext := atBar_extends stopOffsetMilli offset bar (hr.tracked.mono (Nat.sub_le t 1)) hs
  refine ⟨hext.tracked, by simp [atBar_positions, hr.length], by simp [atBar_given, hr.all_given], fun i hi => ?_⟩
  rw [atBar_positions, atBar_given]
  rcases Nat.lt_succ_iff_lt_or_eq.mp hi with hlt | rfl
  · rw [hext.before i hlt, List.getElem?_append_left (by rw [hr.length]; exact hlt),
      List.getElem?_append_left (by rw [hr.all_given]; exact hlt)]
    exact hr.shown i hlt
  · have hp : (s.positions ++ [(s.atBar stopOffsetMilli offset i bar).held.position])[i]? =
        some (s.atBar stopOffsetMilli offset i bar).held.position := by
      simpa only [hr.length] using List.getElem?_concat_length (l := s.positions)
    have hg : (s.given ++ [buildBarState offset i (s.atBar stopOffsetMilli offset i bar).held])[i]? =
        some (buildBarState offset i (s.atBar stopOffsetMilli offset i bar).held) := by
      simpa only [hr.all_given] using List.getElem?_concat_length (l := s.given)
    rw [hp, hg]
    exact hext.tracked.shown

/-- The loop invariant: the bars so far were shown, and a signal is pending only after a bar. -/
def BeforeBar (offset t : Nat) (s : EngineState) : Prop :=
  Reflects offset t (t - 1) s ∧
    ∀ signal, s.pendingSignal = some signal → (-1 ≤ signal ∧ signal ≤ 1) ∧ 1 ≤ t

theorem runBars_reflects (d : Dataset F) (decider : Decider E) (stopOffsetMilli : Int64) :
    RunEnds (BeforeBar d.evalStart) (fun t => Reflects d.evalStart (t + 1) t) d.evalBars
      (runBars decider stopOffsetMilli d.evalStart d.evalBars.length d.evalBars 0 .init) := by
  refine runBars_rule ?_ ?_ d.evalBars 0 .init rfl ?_ (Nat.zero_le _)
  · intro t bar s hbar hp
    exact hp.1.atBar stopOffsetMilli bar hp.2
  · intro t s signal ht hq hd hge hle
    refine ⟨⟨hq.tracked, hq.length, hq.all_given, hq.shown⟩, fun signal' hsig => ?_⟩
    by_cases hn : t + 1 < d.evalBars.length
    · have heq : some signal = some signal' := by simpa only [if_pos hn] using hsig
      exact ⟨Option.some.inj heq ▸ ⟨hge, hle⟩, Nat.succ_pos t⟩
    · have heq : (none : Option Int) = some signal' := by simpa only [if_neg hn] using hsig
      exact absurd heq.symm (Option.some_ne_none signal')
  · exact ⟨.init d.evalStart, fun signal hsig => absurd hsig.symm (Option.some_ne_none signal)⟩

/-! ## The path of a run -/

theorem describes_of_shown {offset : Nat} {trades : List SimTrade} {still : Option Stay} {positions : List Int}
    {given : List BarState} (hord : trades.Pairwise fun a b => a.exitIdx ≤ b.entryIdx)
    (hfwd : ∀ trade ∈ trades, 1 ≤ trade.entryIdx ∧ trade.entryIdx ≤ trade.exitIdx)
    (hlast : ∀ (i : Nat) (trade : SimTrade), trades[i]? = some trade → trade.reason = .endOfData →
      i + 1 = trades.length)
    (hlen : given.length = positions.length)
    (hshown : ∀ i, i < positions.length →
      Shown offset (staysAt trades still i) i positions[i]? given[i]?) :
    Describes (· % 2 ^ 32) offset trades still positions given := by
  refine ⟨hord, hfwd, hlast, fun t p hp direction hd => ?_, hlen, fun t p hp => ?_⟩
  · rcases hshown t (List.getElem?_eq_some_iff.mp hp).1 with ⟨hz, hs, -⟩ | ⟨stay, hs, -, hz, -⟩
    · have heq : p = 0 := Option.some.inj (hp.symm.trans hz)
      simp only [hs, List.filter_nil, List.length_nil]
      omega
    · have heq : p = stay.direction := Option.some.inj (hp.symm.trans hz)
      simp only [hs, List.filter_singleton, heq]
      by_cases hdir : stay.direction = direction
      · simp [hdir]
      · simp [hdir]
  · rcases hshown t (List.getElem?_eq_some_iff.mp hp).1 with ⟨hz, hs, e, hg⟩ | ⟨stay, hs, -, hz, hg⟩
    · have heq : p = 0 := Option.some.inj (hp.symm.trans hz)
      exact ⟨_, hg, rfl, heq.symm, fun hne => absurd heq hne⟩
    · have heq : p = stay.direction := Option.some.inj (hp.symm.trans hz)
      exact ⟨_, hg, rfl, heq.symm, fun _ => ⟨stay, hs, heq.symm, rfl, rfl⟩⟩

/-- A run that failed is described with the position that it left open. -/
theorem Reflects.describes {offset n t : Nat} {s : EngineState} (hr : Reflects offset n t s) :
    Describes (· % 2 ^ 32) offset s.trades s.held.stay s.positions s.given := by
  refine describes_of_shown hr.tracked.ordered hr.tracked.forward ?_ (hr.all_given.trans hr.length.symm) ?_
  · intro i trade htr heod
    exact absurd heod (hr.tracked.ended trade (List.mem_of_getElem? htr)).2
  · intro i hi
    exact hr.shown i (hr.length ▸ hi)

/-- At the end of the bars a position that is open becomes the last trade. -/
theorem Reflects.describes_closed {offset : Nat} {evalBars : List Bar} {s : EngineState}
    (hr : Reflects offset evalBars.length (evalBars.length - 1) s) :
    Describes (· % 2 ^ 32) offset (closeAtPeriodEnd s.held evalBars s.trades) none s.positions s.given := by
  by_cases hp : s.held.position = 0
  · rw [closeAtPeriodEnd, if_pos hp, ← Held.stay_of_eq hp]
    exact hr.describes
  · obtain ⟨-, hge, hle, hafter⟩ := hr.tracked.held hp
    rcases hl : evalBars.getLast? with _ | last
    · rw [List.getLast?_eq_none_iff] at hl
      rw [hl, List.length_nil] at hle
      omega
    · rw [closeAtPeriodEnd, if_neg hp, hl]
      refine describes_of_shown ?_ ?_ ?_ (hr.all_given.trans hr.length.symm) fun i hi => ?_
      · refine List.pairwise_append.mpr ⟨hr.tracked.ordered, List.pairwise_singleton _ _, fun a ha b hb => ?_⟩
        rw [List.mem_singleton.mp hb]
        exact hafter a ha
      · intro trade htr
        rcases List.mem_append.mp htr with htr | htr
        · exact hr.tracked.forward trade htr
        · rw [List.mem_singleton.mp htr]
          exact ⟨hge, hle⟩
      · intro i trade htr heod
        rcases Nat.lt_or_ge i s.trades.length with hi | hi
        · rw [List.getElem?_append_left hi] at htr
          exact absurd heod (hr.tracked.ended trade (List.mem_of_getElem? htr)).2
        · have hlt := (List.getElem?_eq_some_iff.mp htr).1
          simp only [List.length_append, List.length_singleton] at hlt ⊢
          omega
      · rw [hr.length] at hi
        have hend : i < evalBars.length - 1 ∨ i = evalBars.length - 1 := by omega
        have hshown := hr.shown i hi
        rw [Held.stay_of_ne hp] at hshown
        rw [staysAt_closed]
        · exact hshown
        · exact hend.imp id fun heq => ⟨heq, rfl⟩

/-- Trades, positions and bar states of a run agree, but for the bars held being counted in 32 bits. -/
theorem path_of_run {d : Dataset F} {decider : Decider E} {cfg : SimConfig} {given : List BarState}
    {outcome : SimOutcome} (h : simulateRun d decider cfg = (given, .ok outcome)) :
    (outcome.status = .ok → outcome.positions.length = d.evalBars.length ∧
      Describes (· % 2 ^ 32) d.evalStart outcome.trades none outcome.positions given) ∧
    ∀ openTime message, outcome.status = .scriptError openTime message →
      ∃ s bar, d.evalBars[s]? = some bar ∧ bar.openTime = openTime ∧ outcome.positions.length = s + 1 ∧
        ∃ still, Describes (· % 2 ^ 32) d.evalStart outcome.trades still outcome.positions given := by
  have hends := runBars_reflects d decider (stopOffset cfg)
  obtain ⟨s, hrun, rfl, hpos, htrades⟩ := simulateRun_eq_ok h
  rw [hrun] at hends
  rw [hpos, htrades]
  rcases hstatus : outcome.status with _ | ⟨openTime, message⟩
  · rw [hstatus] at hends
    refine ⟨fun _ => ⟨hends.1.length, ?_⟩, fun _ _ hs => RunStatus.noConfusion hs⟩
    exact hends.1.describes_closed
  · rw [hstatus] at hends
    refine ⟨fun hs => RunStatus.noConfusion hs, fun openTime' message' hs => ?_⟩
    obtain ⟨t, bar, hbar, htime, hr⟩ := hends
    refine ⟨t, bar, hbar, htime.trans (RunStatus.scriptError.inj hs).1, hr.length, s.held.stay, ?_⟩
    exact hr.describes

/-- All trades of a run are closed at one of its bars. -/
theorem exits_of_run {d : Dataset F} {decider : Decider E} {cfg : SimConfig} {given : List BarState}
    {outcome : SimOutcome} (h : simulateRun d decider cfg = (given, .ok outcome)) (hok : outcome.status = .ok) :
    outcome.positions.length = d.evalBars.length ∧ ∀ trade ∈ outcome.trades, trade.exitIdx < d.evalBars.length := by
  have hends := runBars_reflects d decider (stopOffset cfg)
  obtain ⟨s, hrun, -, hpos, htrades⟩ := simulateRun_eq_ok h
  rw [hrun, hok] at hends
  have htracked := hends.1.tracked
  have hearlier : ∀ trade ∈ s.trades, trade.exitIdx < d.evalBars.length := by
    intro trade htr
    have hfwd := htracked.forward trade htr
    have hend := (htracked.ended trade htr).1
    omega
  refine ⟨by rw [hpos]; exact hends.1.length, fun trade htr => ?_⟩
  rw [htrades, if_pos hok, closeAtPeriodEnd] at htr
  by_cases hp : s.held.position = 0
  · rw [if_pos hp] at htr
    exact hearlier trade htr
  · rw [if_neg hp] at htr
    obtain ⟨-, hge, hle, -⟩ := htracked.held hp
    rcases hl : d.evalBars.getLast? with _ | last
    · rw [hl] at htr
      exact hearlier trade htr
    · rw [hl] at htr
      rcases List.mem_append.mp htr with htr | htr
      · exact hearlier trade htr
      · rw [List.mem_singleton.mp htr]
        show d.evalBars.length - 1 < d.evalBars.length
        omega

/-- One bar to open on, then a reversal that the stop ends on its entry bar. -/
def sampleReversal : Dataset Unit :=
  .ofBars (fun _ => ()) [.flat 0 100 101, .flat 300 100 101, .flat 600 120 140, .flat 900 110 120] 0

/-- A long on the first bar and a short on the second. -/
def sampleSignals : Decider Unit
  | [_] => .ok 1
  | [_, _] => .ok (-1)
  | _ => .ok 0

theorem sampleReversal_path :
    (simulate sampleReversal sampleSignals ⟨1⟩).toOption.map SimOutcome.positions = some [0, 1, 0, 0] ∧
      Describes (· % 2 ^ 32) 0
        [⟨1, 1, 2, 101, 120, 19, .signal⟩, ⟨-1, 2, 2, 120, 140, -20, .protectiveStop⟩] none [0, 1, 0, 0]
        [⟨0, 0, 0, 0⟩, ⟨1, 1, 101, 0⟩, ⟨2, 0, 120, 0⟩, ⟨3, 0, 120, 0⟩] := by
  have h : simulateRun sampleReversal sampleSignals ⟨1⟩ =
      ([⟨0, 0, 0, 0⟩, ⟨1, 1, 101, 0⟩, ⟨2, 0, 120, 0⟩, ⟨3, 0, 120, 0⟩],
        .ok ⟨.ok, [⟨1, 1, 2, 101, 120, 19, .signal⟩, ⟨-1, 2, 2, 120, 140, -20, .protectiveStop⟩],
          [0, 1, 0, 0]⟩) := by
    rfl
  exact ⟨by decide, ((path_of_run h).1 rfl).2⟩

/-! ## A position held for long -/

theorem runBars_ok (decider : Decider E)
    (hd : ∀ given, ∃ signal, decider given = .ok signal ∧ -1 ≤ signal ∧ signal ≤ 1)
    (stopOffsetMilli : Int64) (offset n : Nat) (bars : List Bar) (t : Nat) (s : EngineState) :
    (runBars decider stopOffsetMilli offset n bars t s).2 = .ok .ok := by
  induction bars generalizing t s with
  | nil => rfl
  | cons bar bars ih =>
    obtain ⟨signal, hsig, hs⟩ := hd (s.atBar stopOffsetMilli offset t bar).given
    simp only [runBars, hsig, if_pos hs]
    exact ih _ _

/-- Bars at one price. -/
def flatBars (n : Nat) : List Bar := (List.range n).map fun i : Nat => .flat (300 * (i : Int)) 100 100

/-- The data of the bars at one price. -/
def flatDataset (n : Nat) : Dataset Unit := .ofBars (fun _ => ()) (flatBars n) 0

/-- A decider that is always long. -/
def alwaysLong : Decider Unit := fun _ => .ok 1

/-- What the run is after `t` bars. -/
structure HeldLong (t : Nat) (s : EngineState) : Prop where
  trades : s.trades = []
  length : s.given.length = t
  held : s.held = if t ≤ 1 then ⟨0, 0, 0⟩ else ⟨1, 100, 1⟩
  given : 2 ≤ t → s.given[t - 1]? = some ⟨t - 1, 1, 100, (t - 2) % 2 ^ 32⟩

theorem HeldLong.atBar {t : Nat} {s : EngineState} (h : HeldLong t s) (openTime : Int)
    (hp : s.pendingSignal = if t = 0 then none else some 1) :
    HeldLong (t + 1) (s.atBar 10 0 t (.flat openTime 100 100)) := by
  have hstop : applyProtectiveStop 10 t (.flat openTime 100 100) ⟨1, 100, 1⟩ [] = (1, []) := by
    rcases applyStop_cases 10 t (.flat openTime 100 100) ⟨1, 100, 1⟩ [] with ⟨-, heq⟩ | ⟨-, hhit, -⟩
    · exact heq
    · exact absurd (show stopHit 10 (.flat 0 100 100) ⟨1, 100, 1⟩ = true from hhit) (by decide)
  have hopened : s.opened t (.flat openTime 100 100) = (if t = 0 then ⟨0, 0, 0⟩ else ⟨1, 100, 1⟩, []) := by
    unfold EngineState.opened
    rw [hp, h.held, h.trades]
    rcases t with _ | _ | t
    · rfl
    · rfl
    · rw [if_neg (by omega), if_neg (by omega), if_neg (by omega)]
      rfl
  have hbar : (s.atBar 10 0 t (.flat openTime 100 100)).held = (if t + 1 ≤ 1 then ⟨0, 0, 0⟩ else ⟨1, 100, 1⟩) ∧
      (s.atBar 10 0 t (.flat openTime 100 100)).trades = [] := by
    rw [atBar_held, atBar_trades, hopened]
    rcases t with _ | t
    · exact ⟨rfl, rfl⟩
    · rw [if_neg (Nat.succ_ne_zero t), hstop, if_neg (by omega)]
      exact ⟨rfl, rfl⟩
  refine ⟨hbar.2, by simp [atBar_given, h.length], hbar.1, fun ht => ?_⟩
  rw [atBar_given, hbar.1, if_neg (by omega), Nat.add_sub_cancel, List.getElem?_append_right (le_of_eq h.length),
    h.length, Nat.sub_self]
  show some (⟨0 + t, 1, 100, (t - 1) % 2 ^ 32⟩ : BarState) = some ⟨t, 1, 100, (t + 1 - 2) % 2 ^ 32⟩
  rw [Nat.zero_add]
  rfl

theorem alwaysLong_run {n : Nat} (hn : 2 ≤ n) : ∃ given outcome,
    simulateRun (flatDataset n) alwaysLong ⟨1⟩ = (given, .ok outcome) ∧ outcome.status = .ok ∧
      outcome.trades = [closedTrade 1 1 (n - 1) 100 100 .endOfData] ∧
      given[n - 1]? = some ⟨n - 1, 1, 100, (n - 2) % 2 ^ 32⟩ := by
  have hlen : (flatDataset n).evalBars.length = n := by
    simp [Dataset.evalBars, flatDataset, Dataset.ofBars, flatBars]
  have hends : RunEnds (E := Unit)
      (fun t s => HeldLong t s ∧ (t < n → s.pendingSignal = if t = 0 then none else some 1))
      (fun t s => HeldLong (t + 1) s) (flatDataset n).evalBars
      (runBars alwaysLong 10 0 (flatDataset n).evalBars.length (flatDataset n).evalBars 0 .init) := by
    refine runBars_rule ?_ ?_ _ 0 .init rfl ?_ (Nat.zero_le _)
    · intro t bar s hbar hp
      have hlt : t < n := hlen ▸ (List.getElem?_eq_some_iff.mp hbar).1
      have heq : bar = .flat (300 * t) 100 100 := by
        simp [Dataset.evalBars, flatDataset, Dataset.ofBars, flatBars, hlt] at hbar
        exact hbar.symm
      rw [heq]
      exact hp.1.atBar _ (hp.2 hlt)
    · intro t s signal ht hq hd _ _
      obtain rfl : 1 = signal := Except.ok.inj hd
      refine ⟨⟨hq.trades, hq.length, hq.held, hq.given⟩, fun hlt => ?_⟩
      rw [hlen, if_neg (Nat.succ_ne_zero t)]
      exact if_pos hlt
    · exact ⟨⟨rfl, rfl, rfl, fun h => absurd h (by decide)⟩, fun _ => rfl⟩
  have hok := runBars_ok alwaysLong (fun _ => ⟨1, rfl, by decide, by decide⟩) 10 0
    (flatDataset n).evalBars.length (flatDataset n).evalBars 0 .init
  rcases hrun : runBars alwaysLong 10 0 (flatDataset n).evalBars.length (flatDataset n).evalBars 0 .init with
    ⟨s, status⟩
  rw [hrun] at hends hok
  obtain rfl : status = .ok .ok := hok
  obtain ⟨hlong, -⟩ := hends
  rw [hlen] at hlong
  refine ⟨s.given, ⟨.ok, closeAtPeriodEnd s.held (flatDataset n).evalBars s.trades, s.positions⟩, ?_, rfl, ?_,
    hlong.given hn⟩
  · have hrun' : runBars alwaysLong (stopOffset ⟨1⟩) (flatDataset n).evalStart (flatDataset n).evalBars.length
        (flatDataset n).evalBars 0 .init = (s, .ok .ok) := hrun
    simp only [simulateRun, hrun']
  · have hlast : (flatDataset n).evalBars.getLast? = some (.flat (300 * ((n - 1 : Nat) : Int)) 100 100) := by
      have hlt : n - 1 < n := by omega
      rw [List.getLast?_eq_getElem?, hlen]
      simp [Dataset.evalBars, flatDataset, Dataset.ofBars, flatBars, hlt]
    rw [hlong.trades, hlong.held, if_neg (by omega), closeAtPeriodEnd, if_neg (by decide), hlast, hlen]
    rfl

/-- After `2 ^ 32` bars a position counts none. -/
theorem bars_held_wraps : ∃ given outcome,
    simulateRun (flatDataset (2 ^ 32 + 2)) alwaysLong ⟨1⟩ = (given, .ok outcome) ∧ outcome.status = .ok ∧
      ¬Describes id (flatDataset (2 ^ 32 + 2)).evalStart outcome.trades none outcome.positions given := by
  obtain ⟨given, outcome, hrun, hok, htrades, hstate⟩ := alwaysLong_run (n := 2 ^ 32 + 2) (by omega)
  refine ⟨given, outcome, hrun, hok, fun hdesc => ?_⟩
  have hlt : 2 ^ 32 + 2 - 1 < outcome.positions.length :=
    hdesc.all_given ▸ (List.getElem?_eq_some_iff.mp hstate).1
  obtain ⟨state, hgiven, -, hposition, hcovered⟩ := hdesc.state _ _ (List.getElem?_eq_getElem hlt)
  have heq : (⟨2 ^ 32 + 2 - 1, 1, 100, (2 ^ 32 + 2 - 2) % 2 ^ 32⟩ : BarState) = state :=
    Option.some.inj (hstate.symm.trans hgiven)
  rw [← hposition, ← heq] at hcovered
  obtain ⟨stay, hstay, -, -, hheld⟩ := hcovered (by decide)
  have hentry : stay.entryIdx = 1 := by
    have hmem : stay ∈ staysAt outcome.trades none (2 ^ 32 + 2 - 1) := by rw [hstay]; exact List.mem_singleton.mpr rfl
    simp only [staysAt, htrades, Option.toList_none, List.filter_nil, List.append_nil, List.mem_map,
      List.mem_filter, List.mem_singleton] at hmem
    obtain ⟨trade, ⟨htr, -⟩, rfl⟩ := hmem
    rw [htr]
    rfl
  have hzero : (2 ^ 32 + 2 - 2) % 2 ^ 32 = 2 ^ 32 + 2 - 1 - stay.entryIdx := hheld
  omega

end AutoTrader.Sim
