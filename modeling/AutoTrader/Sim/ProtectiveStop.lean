import AutoTrader.Lib.Signed64
import AutoTrader.Sim.Path

/-!
# The protective stop

What a run owes to the protective stop, `StopKept`: no position is held through a bar that reaches its stop, and a
bar that reaches it closes the position at the stop or at a worse open. Prices here are integers, while those of
the code wrap around. `stop_kept` holds in every run in which no short is opened so high that its stop is beyond
the largest price (`StopsFit`), and `sampleHighStop_lost` is one in which one is.
-/

namespace AutoTrader.Sim

open Lib

variable {E F : Type}

/-! ## What is owed -/

/-- The bar reaches the stop, `s` away from the entry. -/
def breaches (s direction entry : Int) (bar : Bar) : Prop :=
  if direction = 1 then bar.bidLow.toInt ≤ entry - s else entry + s ≤ bar.askHigh.toInt

/-- The position was held at the bars from its entry on, before bar `t`, and none of them reaches its stop. -/
def Unbreached (s : Int) (evalBars : List Bar) (stay : Stay) (t : Nat) : Prop :=
  ∀ i bar, evalBars[i]? = some bar → stay.entryIdx ≤ i → i < t →
    ¬breaches s stay.direction stay.entryMilli.toInt bar

/-- The exit at the stop, or at the open of the bar if that is worse. -/
def worseExit (s direction entry : Int) (bar : Bar) : Int :=
  if direction = 1 then min (entry - s) bar.bidOpen.toInt else max (entry + s) bar.askOpen.toInt

/-- What is owed to a trade. It is held after the executions at the open of bar `t` if the answer at the bar
before, to the first `t` states, is its direction. -/
structure TradeKept (s : Int) (evalBars : List Bar) (decider : Decider E) (given : List BarState)
    (trade : SimTrade) : Prop where
  unbreached : Unbreached s evalBars trade.stay trade.exitIdx
  last : trade.reason = .endOfData → Unbreached s evalBars trade.stay (trade.exitIdx + 1)
  stopped : trade.reason = .protectiveStop ↔ decider (given.take trade.exitIdx) = .ok trade.direction ∧
    ∃ bar, evalBars[trade.exitIdx]? = some bar ∧ breaches s trade.direction trade.entryMilli.toInt bar
  priced : trade.reason = .protectiveStop → trade.pnlMilli.toInt ≤ -s ∧
    ∀ bar, evalBars[trade.exitIdx]? = some bar →
      trade.exitMilli.toInt = worseExit s trade.direction trade.entryMilli.toInt bar

/-- What a run owes: to its trades, and to the position that it left open. -/
structure StopKept (s : Int) (evalBars : List Bar) (decider : Decider E) (given : List BarState)
    (trades : List SimTrade) (still : Option Stay) (positions : List Int) : Prop where
  trades : ∀ trade ∈ trades, TradeKept s evalBars decider given trade
  still : ∀ stay, still = some stay → Unbreached s evalBars stay positions.length

/-- The distance of the stop is a word, and so is the stop of every short that is opened at a bar: the answer at the
bar before is short, and the position at that bar is not. -/
structure StopsFit (s : Int) (evalBars : List Bar) (decider : Decider E) (given : List BarState) : Prop where
  distance : s < 2 ^ 63
  shorts : ∀ t state bar, given[t]? = some state → evalBars[t + 1]? = some bar → state.position ≠ -1 →
    decider (given.take (t + 1)) = .ok (-1) → bar.bidOpen.toInt + s < 2 ^ 63

/-! ## Stops and prices -/

theorem opening_pos_of_valid {side : Kline} (hv : isValidSide side = true) : 0 < side.opening.toInt := by
  simp only [isValidSide, Bool.and_eq_true, Bool.not_eq_true', Bool.or_eq_false_iff] at hv
  have hle : ¬side.opening ≤ 0 := of_decide_eq_false hv.1.1.1.1
  rw [Int64.le_iff_toInt_le, Int64.toInt_zero] at hle
  omega

theorem open_pos_of_valid {bar : Bar} (hv : isValidPair bar.bid bar.ask = true) :
    0 < bar.bidOpen.toInt ∧ 0 < bar.askOpen.toInt := by
  simp only [isValidPair, Bool.and_eq_true] at hv
  exact ⟨opening_pos_of_valid hv.1.1, opening_pos_of_valid hv.1.2⟩

/-- A position that no bar before `t` has stopped, and whose stop is a word. -/
structure HeldKept (s : Int) (evalBars : List Bar) (t : Nat) (h : Held) : Prop where
  direction : h.position = 1 ∨ h.position = -1
  positive : 0 < h.entryPriceMilli.toInt
  fits : h.position = -1 → h.entryPriceMilli.toInt + s < 2 ^ 63
  unbreached : Unbreached s evalBars ⟨h.position, h.entryIdx, h.entryPriceMilli⟩ t

section

variable {s : Int} {evalBars : List Bar} {t : Nat} {h : Held} {stopOffsetMilli : Int64}

/-- The stop of the code is the exact one. -/
theorem HeldKept.toInt_stopPrice (hk : HeldKept s evalBars t h) (hs : 0 < s) (hoff : stopOffsetMilli.toInt = s) :
    (stopPrice h.position h.entryPriceMilli stopOffsetMilli).toInt =
      if h.position = 1 then h.entryPriceMilli.toInt - s else h.entryPriceMilli.toInt + s := by
  have hlt := h.entryPriceMilli.toInt_lt
  have hslt := stopOffsetMilli.toInt_lt
  have hpos := hk.positive
  unfold stopPrice
  rcases hk.direction with hd | hd
  · rw [if_pos hd, if_pos hd, toInt_sub_of_fits, hoff]
    constructor <;> omega
  · have hfits := hk.fits hd
    have hne : ¬h.position = 1 := by omega
    rw [if_neg hne, if_neg hne, toInt_add_of_fits, hoff]
    constructor <;> omega

theorem HeldKept.stopHit_iff (hk : HeldKept s evalBars t h) (hs : 0 < s) (hoff : stopOffsetMilli.toInt = s)
    (bar : Bar) :
    stopHit stopOffsetMilli bar h = true ↔ breaches s h.position h.entryPriceMilli.toInt bar := by
  have hstop := hk.toInt_stopPrice hs hoff
  unfold stopHit breaches
  by_cases hd : h.position = 1
  · rw [if_pos hd] at hstop
    simp only [if_pos hd, decide_eq_true_eq, Int64.le_iff_toInt_le, hstop]
  · rw [if_neg hd] at hstop
    simp only [if_neg hd, decide_eq_true_eq, Int64.le_iff_toInt_le, hstop]

/-- The exit at the stop is no better than the stop. -/
theorem HeldKept.closedAtStop_priced (hk : HeldKept s evalBars t h) (hs : 0 < s) (hoff : stopOffsetMilli.toInt = s)
    {bar : Bar} (hv : isValidPair bar.bid bar.ask = true) :
    (closedAtStop stopOffsetMilli t bar h).pnlMilli.toInt ≤ -s ∧
      (closedAtStop stopOffsetMilli t bar h).exitMilli.toInt =
        worseExit s h.position h.entryPriceMilli.toInt bar := by
  have hstop := hk.toInt_stopPrice hs hoff
  have hlt := h.entryPriceMilli.toInt_lt
  have hslt := stopOffsetMilli.toInt_lt
  have hask := bar.askOpen.toInt_lt
  have hpos := hk.positive
  obtain ⟨hbid0, hask0⟩ := open_pos_of_valid hv
  show (pnlMilli h.position h.entryPriceMilli (if h.position = 1 then _ else _)).toInt ≤ -s ∧
    (if h.position = 1 then _ else _ : Int64).toInt = _
  unfold pnlMilli worseExit
  rcases hk.direction with hd | hd
  · rw [if_pos hd] at hstop
    simp only [if_pos hd]
    have hexit := toInt_min (stopPrice h.position h.entryPriceMilli stopOffsetMilli) bar.bidOpen
    rw [hstop] at hexit
    refine ⟨?_, hexit⟩
    rw [toInt_sub_of_fits, hexit]
    · omega
    · rw [hexit]
      constructor <;> omega
  · have hfits := hk.fits hd
    have hne : ¬h.position = 1 := by omega
    rw [if_neg hne] at hstop
    simp only [if_neg hne]
    have hexit := toInt_max (stopPrice h.position h.entryPriceMilli stopOffsetMilli) bar.askOpen
    rw [hstop] at hexit
    refine ⟨?_, hexit⟩
    rw [toInt_sub_of_fits, hexit]
    · omega
    · rw [hexit]
      constructor <;> omega

end

/-! ## One bar -/

section

variable {s : Int} {evalBars : List Bar} {t : Nat} {h : Held} {stopOffsetMilli : Int64} {decider : Decider E}
  {given : List BarState}

theorem TradeKept.grow {trade : SimTrade} (hk : TradeKept s evalBars decider given trade)
    (hx : trade.exitIdx ≤ given.length) (state : BarState) :
    TradeKept s evalBars decider (given ++ [state]) trade where
  unbreached := hk.unbreached
  last := hk.last
  stopped := by
    rw [List.take_append_of_le_length hx]
    exact hk.stopped
  priced := hk.priced

theorem HeldKept.closedAtOpen_kept (hk : HeldKept s evalBars t h) (hlen : given.length = t) {signal : Int}
    (hans : decider given = .ok signal) (hne : signal ≠ h.position) (bar : Bar) :
    TradeKept s evalBars decider given (closedAtOpen t bar h) := by
  refine ⟨hk.unbreached, fun hr => ExitReason.noConfusion hr, ⟨fun hr => ExitReason.noConfusion hr, ?_⟩,
    fun hr => ExitReason.noConfusion hr⟩
  rintro ⟨hsame, -⟩
  have hall : decider given = .ok h.position := by
    rwa [show (closedAtOpen t bar h).exitIdx = given.length from hlen.symm, List.take_length] at hsame
  exact absurd (Except.ok.inj (hans.symm.trans hall)) hne

theorem HeldKept.closedAtStop_kept (hk : HeldKept s evalBars t h) (hs : 0 < s) (hoff : stopOffsetMilli.toInt = s)
    (hlen : given.length = t) (hans : decider given = .ok h.position) {bar : Bar} (hbar : evalBars[t]? = some bar)
    (hv : isValidPair bar.bid bar.ask = true) (hhit : stopHit stopOffsetMilli bar h = true) :
    TradeKept s evalBars decider given (closedAtStop stopOffsetMilli t bar h) := by
  obtain ⟨hpnl, hexit⟩ := hk.closedAtStop_priced hs hoff hv
  refine ⟨hk.unbreached, fun hr => ExitReason.noConfusion hr, ⟨fun _ => ⟨?_, bar, hbar, ?_⟩, fun _ => rfl⟩,
    fun _ => ⟨hpnl, fun bar' hbar' => ?_⟩⟩
  · rw [show (closedAtStop stopOffsetMilli t bar h).exitIdx = given.length from hlen.symm, List.take_length]
    exact hans
  · exact (hk.stopHit_iff hs hoff bar).mp hhit
  · obtain rfl : bar = bar' := Option.some.inj (hbar.symm.trans hbar')
    exact hexit

/-- A bar that does not reach the stop. -/
theorem HeldKept.next (hk : HeldKept s evalBars t h) (hs : 0 < s) (hoff : stopOffsetMilli.toInt = s) {bar : Bar}
    (hbar : evalBars[t]? = some bar) (hhit : stopHit stopOffsetMilli bar h = false) :
    HeldKept s evalBars (t + 1) h := by
  refine ⟨hk.direction, hk.positive, hk.fits, fun i bar' hbar' hle hlt => ?_⟩
  rcases Nat.lt_succ_iff_lt_or_eq.mp hlt with hlt | rfl
  · exact hk.unbreached i bar' hbar' hle hlt
  · obtain rfl : bar = bar' := Option.some.inj (hbar.symm.trans hbar')
    intro hbr
    rw [(hk.stopHit_iff hs hoff bar).mpr hbr] at hhit
    exact Bool.noConfusion hhit

/-- A position that opens at a bar has no bars behind it. -/
theorem HeldKept.opening {signal : Int} (hsig : signal = 1 ∨ signal = -1) {bar : Bar}
    (hv : isValidPair bar.bid bar.ask = true) (hfits : signal = -1 → bar.bidOpen.toInt + s < 2 ^ 63) :
    HeldKept s evalBars t (openedAt signal t bar) := by
  obtain ⟨hbid, hask⟩ := open_pos_of_valid hv
  refine ⟨hsig, ?_, fun hd => ?_, fun i bar' _ hle hlt => absurd hlt (Nat.not_lt.mpr hle)⟩
  · show 0 < (if signal = 1 then bar.askOpen else bar.bidOpen).toInt
    split
    · exact hask
    · exact hbid
  · have hne : ¬signal = 1 := by
      have hd : signal = -1 := hd
      omega
    show (if signal = 1 then bar.askOpen else bar.bidOpen).toInt + s < 2 ^ 63
    rw [if_neg hne]
    exact hfits hd

end

/-! ## The bars of a run -/

/-- The first `t` bars kept the stop. -/
structure Guarded (s : Int) (evalBars : List Bar) (decider : Decider E) (t : Nat) (st : EngineState) : Prop where
  length : st.given.length = t
  trades : ∀ trade ∈ st.trades, TradeKept s evalBars decider st.given trade ∧ trade.exitIdx ≤ t
  held : st.held.position ≠ 0 → HeldKept s evalBars t st.held
  state : ∀ u, t = u + 1 → ∃ state, st.given[u]? = some state ∧ state.position = st.held.position

/-- The pending signal is the answer to the states so far, and only the first bar is without one. -/
structure Signalled (decider : Decider E) (n t : Nat) (st : EngineState) : Prop where
  answered : ∀ signal, st.pendingSignal = some signal →
    decider st.given = .ok signal ∧ (-1 ≤ signal ∧ signal ≤ 1) ∧ 1 ≤ t
  silent : st.pendingSignal = none → t < n → st.held.position = 0

section

variable {s : Int} {evalBars : List Bar} {t : Nat} {st : EngineState} {decider : Decider E} {bar : Bar}

theorem Guarded.opened (hg : Guarded s evalBars decider t st) (hp : Signalled decider evalBars.length t st)
    (hfit : StopsFit s evalBars decider st.given) (hbar : evalBars[t]? = some bar)
    (hv : isValidPair bar.bid bar.ask = true) :
    (∀ trade ∈ (st.opened t bar).2, TradeKept s evalBars decider st.given trade ∧ trade.exitIdx ≤ t) ∧
      ((st.opened t bar).1.position ≠ 0 →
        HeldKept s evalBars t (st.opened t bar).1 ∧ decider st.given = .ok (st.opened t bar).1.position) := by
  unfold EngineState.opened
  rcases hsig : st.pendingSignal with _ | signal
  · have hflat := hp.silent hsig (List.getElem?_eq_some_iff.mp hbar).1
    exact ⟨hg.trades, fun hne => absurd hflat hne⟩
  · obtain ⟨hans, hrange, h1⟩ := hp.answered signal hsig
    have hopening : signal ≠ 0 → signal ≠ st.held.position →
        HeldKept s evalBars t (openedAt signal t bar) ∧ decider st.given = .ok signal := by
      intro hz hne
      refine ⟨.opening (by omega) hv fun hd => ?_, hans⟩
      obtain ⟨u, rfl⟩ : ∃ u, t = u + 1 := ⟨t - 1, by omega⟩
      obtain ⟨state, hstate, hposition⟩ := hg.state u rfl
      refine hfit.shorts u state bar hstate hbar ?_ ?_
      · rw [hposition, ← hd]
        exact hne.symm
      · rw [← hg.length, List.take_length, ← hd]
        exact hans
    have hclosing : st.held.position ≠ 0 → signal ≠ st.held.position →
        ∀ trade ∈ st.trades ++ [closedAtOpen t bar st.held],
          TradeKept s evalBars decider st.given trade ∧ trade.exitIdx ≤ t := by
      intro hz hne trade htr
      rcases List.mem_append.mp htr with htr | htr
      · exact hg.trades trade htr
      · rw [List.mem_singleton.mp htr]
        exact ⟨(hg.held hz).closedAtOpen_kept hg.length hans hne bar, le_refl t⟩
    dsimp only
    rcases applySignal_cases signal t bar st.held st.trades with
      ⟨hsame, heq⟩ | ⟨hz, hs0, heq⟩ | ⟨hz, hs0, heq⟩ | ⟨hz, hs0, hne, heq⟩
    · rw [heq]
      exact ⟨hg.trades, fun hz => ⟨hg.held hz, hsame ▸ hans⟩⟩
    · rw [heq]
      exact ⟨hg.trades, fun _ => hopening hs0 (by omega)⟩
    · rw [heq]
      exact ⟨hclosing hz (by omega), fun hne => absurd rfl hne⟩
    · rw [heq]
      exact ⟨hclosing hz hne, fun _ => hopening hs0 hne⟩

theorem Guarded.atBar (hg : Guarded s evalBars decider t st) (hp : Signalled decider evalBars.length t st)
    (hfit : StopsFit s evalBars decider st.given) (hbar : evalBars[t]? = some bar)
    (hv : isValidPair bar.bid bar.ask = true) (hs : 0 < s) {stopOffsetMilli : Int64}
    (hoff : stopOffsetMilli.toInt = s) (offset : Nat) :
    Guarded s evalBars decider (t + 1) (st.atBar stopOffsetMilli offset t bar) := by
  obtain ⟨htrades, hheld⟩ := hg.opened hp hfit hbar hv
  have hgrow : ∀ trade, TradeKept s evalBars decider st.given trade ∧ trade.exitIdx ≤ t →
      TradeKept s evalBars decider (st.atBar stopOffsetMilli offset t bar).given trade ∧ trade.exitIdx ≤ t + 1 := by
    intro trade ⟨hk, hx⟩
    rw [atBar_given]
    exact ⟨hk.grow (hx.trans hg.length.ge) _, Nat.le_succ_of_le hx⟩
  have hlen : (st.atBar stopOffsetMilli offset t bar).given.length = t + 1 := by
    rw [atBar_given, List.length_append, hg.length]
    rfl
  have hstate : ∀ u, t + 1 = u + 1 → ∃ state, (st.atBar stopOffsetMilli offset t bar).given[u]? = some state ∧
      state.position = (st.atBar stopOffsetMilli offset t bar).held.position := by
    intro u hu
    obtain rfl : t = u := by omega
    refine ⟨buildBarState offset t (st.atBar stopOffsetMilli offset t bar).held, ?_, rfl⟩
    rw [atBar_given, List.getElem?_append_right hg.length.le, hg.length, Nat.sub_self]
    rfl
  rcases applyStop_cases stopOffsetMilli t bar (st.opened t bar).1 (st.opened t bar).2 with
    ⟨hnot, heq⟩ | ⟨hz, hhit, heq⟩
  · refine ⟨hlen, ?_, ?_, hstate⟩
    · rw [atBar_trades, heq]
      exact fun trade htr => hgrow trade (htrades trade htr)
    · rw [atBar_held, heq]
      intro hz
      exact (hheld hz).1.next hs hoff hbar (hnot.resolve_left hz)
  · refine ⟨hlen, ?_, ?_, hstate⟩
    · rw [atBar_trades, heq]
      intro trade htr
      rcases List.mem_append.mp htr with htr | htr
      · exact hgrow trade (htrades trade htr)
      · rw [List.mem_singleton.mp htr]
        obtain ⟨hk, hans⟩ := hheld hz
        exact hgrow _ ⟨hk.closedAtStop_kept hs hoff hg.length hans hbar hv hhit, le_refl t⟩
    · rw [atBar_held, heq]
      exact fun hz => absurd rfl hz

end

theorem StopsFit.shorter {s : Int} {evalBars : List Bar} {decider : Decider E} {given : List BarState}
    {state : BarState} (h : StopsFit s evalBars decider (given ++ [state])) : StopsFit s evalBars decider given := by
  refine ⟨h.distance, fun t state' bar hstate hbar hne hans => ?_⟩
  have hlt := (List.getElem?_eq_some_iff.mp hstate).1
  refine h.shorts t state' bar ?_ hbar hne ?_
  · rw [List.getElem?_append_left hlt]
    exact hstate
  · rw [List.take_append_of_le_length hlt]
    exact hans

theorem toInt_stopOffset {cfg : SimConfig} (hs : 0 < cfg.protectiveStopPips.toInt * 10)
    (hlt : cfg.protectiveStopPips.toInt * 10 < 2 ^ 63) :
    (stopOffset cfg).toInt = cfg.protectiveStopPips.toInt * 10 := by
  refine toInt_mul_of_fits ?_
  show Fits (cfg.protectiveStopPips.toInt * 10)
  constructor <;> omega

/-- Every bar of a run keeps the stop, as far as the stops are words. -/
theorem runBars_guarded (d : Dataset F) (decider : Decider E) (cfg : SimConfig)
    (hs : 0 < cfg.protectiveStopPips.toInt * 10)
    (hv : ∀ bar ∈ d.evalBars, isValidPair bar.bid bar.ask = true) :
    RunEnds
      (fun t st => StopsFit (cfg.protectiveStopPips.toInt * 10) d.evalBars decider st.given →
        Guarded (cfg.protectiveStopPips.toInt * 10) d.evalBars decider t st ∧
          Signalled decider d.evalBars.length t st)
      (fun t st => StopsFit (cfg.protectiveStopPips.toInt * 10) d.evalBars decider st.given →
        Guarded (cfg.protectiveStopPips.toInt * 10) d.evalBars decider (t + 1) st)
      d.evalBars
      (runBars decider (stopOffset cfg) d.evalStart d.evalBars.length d.evalBars 0 .init) := by
  refine runBars_rule ?_ ?_ d.evalBars 0 .init rfl ?_ (Nat.zero_le _)
  · intro t bar st hbar hp hfit
    have hfit' : StopsFit (cfg.protectiveStopPips.toInt * 10) d.evalBars decider st.given :=
      StopsFit.shorter hfit
    obtain ⟨hg, hsig⟩ := hp hfit'
    exact hg.atBar hsig hfit' hbar (hv bar (List.mem_of_getElem? hbar)) hs
      (toInt_stopOffset hs hfit.distance) d.evalStart
  · intro t st signal ht hq hans hge hle hfit
    have hg := hq hfit
    refine ⟨⟨hg.length, hg.trades, hg.held, hg.state⟩, fun signal' hsig => ?_, fun hnone hlt => ?_⟩
    · by_cases hn : t + 1 < d.evalBars.length
      · have heq : some signal = some signal' := by simpa only [if_pos hn] using hsig
        obtain rfl := Option.some.inj heq
        exact ⟨hans, ⟨hge, hle⟩, Nat.succ_pos t⟩
      · have heq : (none : Option Int) = some signal' := by simpa only [if_neg hn] using hsig
        exact absurd heq.symm (Option.some_ne_none signal')
    · have heq : some signal = none := by simpa only [if_pos hlt] using hnone
      exact absurd heq (Option.some_ne_none signal)
  · intro _
    refine ⟨⟨rfl, fun trade htr => absurd htr List.not_mem_nil, fun hz => absurd rfl hz,
      fun u hu => absurd hu (Nat.succ_ne_zero u).symm⟩, fun signal hsig => ?_, fun _ _ => rfl⟩
    exact absurd hsig.symm (Option.some_ne_none signal)

/-! ## The stop of a run -/

theorem Guarded.kept {s : Int} {evalBars : List Bar} {decider : Decider E} {t : Nat} {st : EngineState}
    (hg : Guarded s evalBars decider t st) (hpos : st.positions.length = t) :
    StopKept s evalBars decider st.given st.trades st.held.stay st.positions := by
  refine ⟨fun trade htr => (hg.trades trade htr).1, fun stay hstay => ?_⟩
  by_cases hz : st.held.position = 0
  · rw [Held.stay_of_eq hz] at hstay
    exact absurd hstay.symm (Option.some_ne_none stay)
  · rw [Held.stay_of_ne hz] at hstay
    obtain rfl := Option.some.inj hstay
    rw [hpos]
    exact (hg.held hz).unbreached

/-- The position that is closed at the last bar was held through it. -/
theorem Guarded.kept_closed {s : Int} {evalBars : List Bar} {decider : Decider E} {st : EngineState}
    (hg : Guarded s evalBars decider evalBars.length st)
    (hfwd : ∀ trade ∈ closeAtPeriodEnd st.held evalBars st.trades, trade.entryIdx ≤ trade.exitIdx) :
    StopKept s evalBars decider st.given (closeAtPeriodEnd st.held evalBars st.trades) none st.positions := by
  refine ⟨fun trade htr => ?_, fun stay hstay => absurd hstay.symm (Option.some_ne_none stay)⟩
  have hle := hfwd trade htr
  unfold closeAtPeriodEnd at htr
  by_cases hz : st.held.position = 0
  · rw [if_pos hz] at htr
    exact (hg.trades trade htr).1
  · rw [if_neg hz] at htr
    rcases hl : evalBars.getLast? with _ | last
    · rw [hl] at htr
      exact (hg.trades trade htr).1
    · rw [hl] at htr
      rcases List.mem_append.mp htr with htr | htr
      · exact (hg.trades trade htr).1
      · rw [List.mem_singleton.mp htr] at hle ⊢
        have hun := (hg.held hz).unbreached
        have hn : 0 < evalBars.length := List.length_pos_iff.mpr fun hnil => by simp [hnil] at hl
        refine ⟨fun i bar hbar hent hlt => hun i bar hbar hent (Nat.lt_of_lt_pred hlt), fun _ i bar hbar hent hlt => ?_,
          ⟨fun hr => ExitReason.noConfusion hr, ?_⟩, fun hr => ExitReason.noConfusion hr⟩
        · exact hun i bar hbar hent (Nat.sub_add_cancel hn ▸ hlt)
        · rintro ⟨-, bar, hbar, hbr⟩
          exact absurd hbr (hun (evalBars.length - 1) bar hbar hle (Nat.sub_lt hn Nat.one_pos))

/-- A run keeps the protective stop if the stops of its shorts are words. -/
theorem stop_kept {d : Dataset F} {decider : Decider E} {cfg : SimConfig} {given : List BarState}
    {outcome : SimOutcome} (h : simulateRun d decider cfg = (given, .ok outcome))
    (hs : 0 < cfg.protectiveStopPips.toInt * 10)
    (hv : ∀ bar ∈ d.evalBars, isValidPair bar.bid bar.ask = true)
    (hfit : StopsFit (cfg.protectiveStopPips.toInt * 10) d.evalBars decider given) :
    ∃ still, (outcome.status = .ok → still = none) ∧
      Describes (· % 2 ^ 32) d.evalStart outcome.trades still outcome.positions given ∧
      StopKept (cfg.protectiveStopPips.toInt * 10) d.evalBars decider given outcome.trades still
        outcome.positions := by
  have hends := runBars_guarded d decider cfg hs hv
  have hpath := runBars_reflects d decider (stopOffset cfg)
  obtain ⟨st, hrun, rfl, hpos, htrades⟩ := simulateRun_eq_ok h
  rw [hrun] at hends hpath
  rw [hpos, htrades]
  rcases hstatus : outcome.status with _ | ⟨openTime, message⟩
  · rw [hstatus] at hends hpath
    have hdesc := hpath.1.describes_closed
    exact ⟨none, fun _ => rfl, hdesc, (hends hfit).1.kept_closed fun trade htr => (hdesc.forward trade htr).2⟩
  · rw [hstatus] at hends hpath
    obtain ⟨t, bar, -, -, hg⟩ := hends
    obtain ⟨t', bar', -, -, hr⟩ := hpath
    have hg := hg hfit
    have hlen : st.positions.length = t + 1 := by
      rw [hr.length, ← hr.all_given, hg.length]
    exact ⟨st.held.stay, fun hs => RunStatus.noConfusion hs, hr.describes, hg.kept hlen⟩

/-- The last bar opens below the stop. -/
def sampleGap : Dataset Unit := .ofBars (fun _ => ()) [.flat 0 100 101, .flat 300 100 101, .flat 600 80 82] 0

theorem sampleGap_kept : ∃ still : Option Stay, (RunStatus.ok = .ok → still = none) ∧
    Describes (· % 2 ^ 32) 0 [⟨1, 1, 2, 101, 80, -21, .protectiveStop⟩] still [0, 1, 0]
      [⟨0, 0, 0, 0⟩, ⟨1, 1, 101, 0⟩, ⟨2, 0, 101, 0⟩] ∧
    StopKept 10 sampleGap.evalBars alwaysLong [⟨0, 0, 0, 0⟩, ⟨1, 1, 101, 0⟩, ⟨2, 0, 101, 0⟩]
      [⟨1, 1, 2, 101, 80, -21, .protectiveStop⟩] still [0, 1, 0] := by
  have h : simulateRun sampleGap alwaysLong ⟨1⟩ = ([⟨0, 0, 0, 0⟩, ⟨1, 1, 101, 0⟩, ⟨2, 0, 101, 0⟩],
      .ok ⟨.ok, [⟨1, 1, 2, 101, 80, -21, .protectiveStop⟩], [0, 1, 0]⟩) := by
    rfl
  exact stop_kept h (by decide) (by decide)
    ⟨by decide, fun _ _ _ _ _ _ hans => absurd (Except.ok.inj hans) (by decide)⟩

/-- A decider that is always short. -/
def alwaysShort : Decider Unit := fun _ => .ok (-1)

/-- Two bars at one price. -/
def sampleHighStop : Dataset Unit := .ofBars (fun _ => ()) [.flat 0 100 101, .flat 300 100 101] 0

/-- The stop of the short wraps around to a negative price, which every bar reaches. -/
theorem sampleHighStop_lost : (∀ bar ∈ sampleHighStop.evalBars, isValidPair bar.bid bar.ask = true) ∧
    ∃ given outcome, simulateRun sampleHighStop alwaysShort ⟨922337203685477580⟩ = (given, .ok outcome) ∧
      outcome.trades = [⟨-1, 1, 1, 100, 101, -1, .protectiveStop⟩] ∧
      ∀ still, ¬StopKept (922337203685477580 * 10) sampleHighStop.evalBars alwaysShort given outcome.trades still
        outcome.positions := by
  refine ⟨by decide, [⟨0, 0, 0, 0⟩, ⟨1, 0, 100, 0⟩],
    ⟨.ok, [⟨-1, 1, 1, 100, 101, -1, .protectiveStop⟩], [0, 0]⟩, rfl, rfl, fun still hkept => ?_⟩
  have hpnl := ((hkept.trades _ (List.mem_singleton.mpr rfl)).priced rfl).1
  exact absurd hpnl (by decide)

end AutoTrader.Sim
