import AutoTrader.Sim.Engine
import Mathlib.Data.List.Infix

/-!
# A simulation does not see the future

A decider that answers from the bars seen so far, `onBarsSeen`, is run over two datasets that agree up to a
bar. Both runs are the same up to that bar (`runBars_congr`), and what comes later only adds to it (`Continues`).
The test whether there is a next bar is the one use of the length, and `simulate_causal` asks for a next bar.
-/

namespace AutoTrader.Sim

variable {E F : Type}

/-- The decider that a function of the bars seen so far and of the states given is, on a dataset. -/
def onBarsSeen (answer : List Bar → Decider E) (d : Dataset F) : Decider E :=
  fun given => answer (d.bars.take (d.evalStart + given.length)) given

/-- The trades closed at a bar up to `t` in which the data did not end. -/
def tradesUpTo (t : Nat) (trades : List SimTrade) : List SimTrade :=
  trades.filter fun trade => decide (trade.exitIdx ≤ t) && decide (trade.reason ≠ .endOfData)

/-! ## The common bars -/

theorem length_atBar_given (stopOffsetMilli : Int64) (offset t : Nat) (bar : Bar) (s : EngineState) :
    (s.atBar stopOffsetMilli offset t bar).given.length = s.given.length + 1 := by
  simp [atBar_given]

/-- Runs over the same bars agree if the deciders do, as long as more bars follow in both. -/
theorem runBars_congr (decider₁ decider₂ : Decider E) {k n₁ n₂ : Nat} (stopOffsetMilli : Int64) (offset : Nat)
    (hd : ∀ given, given.length ≤ k → decider₁ given = decider₂ given) (h₁ : k < n₁) (h₂ : k < n₂)
    (bars : List Bar) (t : Nat) (s : EngineState) (ht : t + bars.length ≤ k) (hs : s.given.length = t) :
    runBars decider₁ stopOffsetMilli offset n₁ bars t s = runBars decider₂ stopOffsetMilli offset n₂ bars t s := by
  induction bars generalizing t s with
  | nil => rfl
  | cons bar bars ih =>
    rw [List.length_cons] at ht
    have hlen := length_atBar_given stopOffsetMilli offset t bar s
    have hn₁ : t + 1 < n₁ := by omega
    have hn₂ : t + 1 < n₂ := by omega
    have hsame := hd (s.atBar stopOffsetMilli offset t bar).given (by omega)
    simp only [runBars, hsame, if_pos hn₁, if_pos hn₂]
    rcases decider₂ (s.atBar stopOffsetMilli offset t bar).given with (message | e) | signal
    · rfl
    · rfl
    · dsimp only
      by_cases hsig : -1 ≤ signal ∧ signal ≤ 1
      · rw [if_pos hsig, if_pos hsig]
        apply ih
        · omega
        · show (s.atBar stopOffsetMilli offset t bar).given.length = t + 1
          omega
      · rw [if_neg hsig, if_neg hsig]

/-- A run goes on after the first bars unless it stopped in them. -/
theorem runBars_append (decider : Decider E) (stopOffsetMilli : Int64) (offset n : Nat) (bars later : List Bar)
    (t : Nat) (s : EngineState) :
    runBars decider stopOffsetMilli offset n (bars ++ later) t s =
      match runBars decider stopOffsetMilli offset n bars t s with
      | (s, .ok .ok) => runBars decider stopOffsetMilli offset n later (t + bars.length) s
      | stopped => stopped := by
  induction bars generalizing t s with
  | nil => rfl
  | cons bar bars ih =>
    simp only [List.cons_append, runBars]
    rcases decider (s.atBar stopOffsetMilli offset t bar).given with (message | e) | signal
    · rfl
    · rfl
    · dsimp only
      by_cases hsig : -1 ≤ signal ∧ signal ≤ 1
      · rw [if_pos hsig, if_pos hsig, ih, List.length_cons, Nat.add_assoc, Nat.add_comm 1]
      · rw [if_neg hsig, if_neg hsig]

/-! ## What comes later -/

/-- Later states keep what there was before bar `t`. -/
structure Continues (t : Nat) (s s' : EngineState) : Prop where
  given : s.given <+: s'.given
  positions : s.positions <+: s'.positions
  trades : ∃ new, s'.trades = s.trades ++ new ∧ ∀ trade ∈ new, t ≤ trade.exitIdx

theorem atBar_new_trades (stopOffsetMilli : Int64) (offset t : Nat) (bar : Bar) (s : EngineState) :
    ∃ new, (s.atBar stopOffsetMilli offset t bar).trades = s.trades ++ new ∧
      ∀ trade ∈ new, trade.exitIdx = t := by
  have hopened : ∃ new, (s.opened t bar).2 = s.trades ++ new ∧ ∀ trade ∈ new, trade.exitIdx = t := by
    unfold EngineState.opened
    rcases s.pendingSignal with _ | signal
    · exact ⟨[], (List.append_nil _).symm, by simp⟩
    · dsimp only
      rcases applySignal_cases signal t bar s.held s.trades with
        ⟨-, heq⟩ | ⟨-, -, heq⟩ | ⟨-, -, heq⟩ | ⟨-, -, -, heq⟩
      · exact ⟨[], by simp [heq], by simp⟩
      · exact ⟨[], by simp [heq], by simp⟩
      · exact ⟨[closedAtOpen t bar s.held], by simp [heq], by simp [closedAtOpen, closedTrade]⟩
      · exact ⟨[closedAtOpen t bar s.held], by simp [heq], by simp [closedAtOpen, closedTrade]⟩
  obtain ⟨new, hnew, hexit⟩ := hopened
  rw [atBar_trades]
  rcases applyStop_cases stopOffsetMilli t bar (s.opened t bar).1 (s.opened t bar).2 with ⟨-, heq⟩ | ⟨-, -, heq⟩
  · exact ⟨new, by rw [heq, hnew], hexit⟩
  · refine ⟨new ++ [closedAtStop stopOffsetMilli t bar (s.opened t bar).1], by rw [heq, hnew, List.append_assoc], ?_⟩
    intro trade htr
    rcases List.mem_append.mp htr with htr | htr
    · exact hexit trade htr
    · rw [List.mem_singleton.mp htr]
      rfl

theorem Continues.refl (t : Nat) (s : EngineState) : Continues t s s :=
  ⟨List.prefix_rfl, List.prefix_rfl, [], (List.append_nil _).symm, by simp⟩

theorem Continues.atBar {t u : Nat} {s s' : EngineState} (h : Continues t s s') (htu : t ≤ u)
    (stopOffsetMilli : Int64) (offset : Nat) (bar : Bar) :
    Continues t s (s'.atBar stopOffsetMilli offset u bar) := by
  obtain ⟨new, hnew, hexit⟩ := h.trades
  obtain ⟨newer, hnewer, hat⟩ := atBar_new_trades stopOffsetMilli offset u bar s'
  refine ⟨h.given.trans (List.prefix_append _ _), h.positions.trans (List.prefix_append _ _), new ++ newer, ?_, ?_⟩
  · rw [hnewer, hnew, List.append_assoc]
  · intro trade htr
    rcases List.mem_append.mp htr with htr | htr
    · exact hexit trade htr
    · rw [hat trade htr]
      exact htu

theorem runBars_continues (decider : Decider E) (stopOffsetMilli : Int64) (offset : Nat) (evalBars : List Bar)
    {t : Nat} (ht : t ≤ evalBars.length) (s : EngineState) :
    Continues t s (runBars decider stopOffsetMilli offset evalBars.length (evalBars.drop t) t s).1 := by
  have hends : RunEnds (fun u s' => t ≤ u ∧ Continues t s s') (fun u s' => t ≤ u ∧ Continues t s s') evalBars
      (runBars decider stopOffsetMilli offset evalBars.length (evalBars.drop t) t s) := by
    refine runBars_rule ?_ ?_ (evalBars.drop t) t s rfl ⟨le_refl t, .refl t s⟩ ht
    · intro u bar s' _ hp
      exact ⟨hp.1, hp.2.atBar hp.1 stopOffsetMilli offset bar⟩
    · intro u s' signal _ hq _ _ _
      exact ⟨Nat.le_succ_of_le hq.1, hq.2.given, hq.2.positions, hq.2.trades⟩
  rcases hrun : runBars decider stopOffsetMilli offset evalBars.length (evalBars.drop t) t s with
    ⟨s', e | _ | ⟨openTime, message⟩⟩
  · rw [hrun] at hends
    obtain ⟨u, -, -, hc⟩ := hends
    exact hc
  · rw [hrun] at hends
    exact hends.2
  · rw [hrun] at hends
    obtain ⟨u, bar, -, -, -, hc⟩ := hends
    exact hc

/-! ## Two datasets -/

theorem length_of_runBars_ok {decider : Decider E} {stopOffsetMilli : Int64} {offset n : Nat} (bars : List Bar)
    {t : Nat} {s s' : EngineState} (h : runBars decider stopOffsetMilli offset n bars t s = (s', .ok .ok)) :
    s'.given.length = s.given.length + bars.length ∧ s'.positions.length = s.positions.length + bars.length := by
  induction bars generalizing t s with
  | nil =>
    obtain rfl := (Prod.mk.inj h).1
    exact ⟨rfl, rfl⟩
  | cons bar bars ih =>
    have hgiven := length_atBar_given stopOffsetMilli offset t bar s
    have hpos : (s.atBar stopOffsetMilli offset t bar).positions.length = s.positions.length + 1 := by
      simp [atBar_positions]
    simp only [runBars] at h
    rcases hd : decider (s.atBar stopOffsetMilli offset t bar).given with (message | e) | signal
    · simp [hd] at h
    · simp [hd] at h
    · by_cases hsig : -1 ≤ signal ∧ signal ≤ 1
      · simp only [hd, if_pos hsig] at h
        have hrest := ih h
        dsimp only at hrest
        rw [List.length_cons]
        omega
      · simp [hd, hsig] at h

theorem take_eq_of_isPrefix {α : Type} {l l' : List α} {k : Nat} (h : l <+: l') (hk : l.length = k) :
    l'.take k = l.take k := by
  rw [← hk, List.take_length]
  exact (List.prefix_iff_eq_take.mp h).symm

theorem tradesUpTo_append {t : Nat} (trades new : List SimTrade)
    (h : ∀ trade ∈ new, t + 1 ≤ trade.exitIdx ∨ trade.reason = .endOfData) :
    tradesUpTo t (trades ++ new) = tradesUpTo t trades := by
  have hnone : tradesUpTo t new = [] := by
    refine List.filter_eq_nil_iff.mpr fun trade htr => ?_
    rcases h trade htr with hle | heq
    · simp [Nat.not_le.mpr hle]
    · simp [heq]
  rw [tradesUpTo, List.filter_append]
  exact (congrArg _ hnone).trans (List.append_nil _)

theorem tradesUpTo_closeAtPeriodEnd (t : Nat) (h : Held) (evalBars : List Bar) (trades : List SimTrade) :
    tradesUpTo t (closeAtPeriodEnd h evalBars trades) = tradesUpTo t trades := by
  unfold closeAtPeriodEnd
  split
  · rfl
  · rcases evalBars.getLast? with _ | last
    · rfl
    · refine tradesUpTo_append _ _ fun trade htr => .inr ?_
      rw [List.mem_singleton.mp htr]
      rfl

/-- The run over all bars keeps what it was after the first `t + 1` of them. -/
theorem runBars_upTo (decider : Decider E) (stopOffsetMilli : Int64) (offset : Nat) {evalBars : List Bar} {t : Nat}
    (ht : t + 1 < evalBars.length) {s s' : EngineState} {status status' : Except E RunStatus}
    (hs : runBars decider stopOffsetMilli offset evalBars.length (evalBars.take (t + 1)) 0 .init = (s, status))
    (hs' : runBars decider stopOffsetMilli offset evalBars.length evalBars 0 .init = (s', status')) :
    s'.given.take (t + 1) = s.given.take (t + 1) ∧ s'.positions.take (t + 1) = s.positions.take (t + 1) ∧
      tradesUpTo t s'.trades = tradesUpTo t s.trades := by
  have hrun := runBars_append decider stopOffsetMilli offset evalBars.length (evalBars.take (t + 1))
    (evalBars.drop (t + 1)) 0 .init
  have hlen : (evalBars.take (t + 1)).length = t + 1 := List.length_take_of_le (by omega)
  rw [List.take_append_drop, hs, hs', hlen, Nat.zero_add] at hrun
  rcases status with e | _ | ⟨openTime, message⟩
  · obtain rfl := (Prod.mk.inj hrun).1
    exact ⟨rfl, rfl, rfl⟩
  · obtain ⟨hgiven, hpos⟩ := length_of_runBars_ok _ hs
    have hcont : Continues (t + 1) s s' := by
      have hcont := runBars_continues decider stopOffsetMilli offset evalBars (by omega : t + 1 ≤ evalBars.length) s
      have heq : (s', status') = runBars decider stopOffsetMilli offset evalBars.length (evalBars.drop (t + 1))
        (t + 1) s := hrun
      rwa [← heq] at hcont
    obtain ⟨new, hnew, hexit⟩ := hcont.trades
    refine ⟨take_eq_of_isPrefix hcont.given ?_, take_eq_of_isPrefix hcont.positions ?_, ?_⟩
    · rw [hgiven, hlen]
      exact Nat.zero_add _
    · rw [hpos, hlen]
      exact Nat.zero_add _
    · rw [hnew]
      exact tradesUpTo_append _ _ fun trade htr => .inl (hexit trade htr)
  · obtain rfl := (Prod.mk.inj hrun).1
    exact ⟨rfl, rfl, rfl⟩

/-- What a simulation is up to bar `t` is what its first `t + 1` bars are. -/
theorem simulateRun_upTo (d : Dataset F) (decider : Decider E) (cfg : SimConfig) {t : Nat}
    (ht : t + 1 < d.evalBars.length) {s : EngineState} {status : Except E RunStatus}
    (hs : runBars decider (stopOffset cfg) d.evalStart d.evalBars.length (d.evalBars.take (t + 1)) 0 .init =
      (s, status)) :
    (simulateRun d decider cfg).1.take (t + 1) = s.given.take (t + 1) ∧
      ∀ outcome, (simulateRun d decider cfg).2 = .ok outcome →
        outcome.positions.take (t + 1) = s.positions.take (t + 1) ∧
          tradesUpTo t outcome.trades = tradesUpTo t s.trades := by
  refine ⟨(runBars_upTo decider (stopOffset cfg) d.evalStart ht hs rfl).1, fun outcome hout => ?_⟩
  obtain ⟨s', hrun, -, hpos, htrades⟩ := simulateRun_eq_ok (Prod.ext rfl hout)
  obtain ⟨-, hp, htr⟩ := runBars_upTo decider (stopOffset cfg) d.evalStart ht hs hrun
  refine ⟨by rw [hpos, hp], ?_⟩
  rw [htrades, ← htr]
  split
  · exact tradesUpTo_closeAtPeriodEnd t _ _ _
  · rfl

theorem onBarsSeen_congr {d₁ d₂ : Dataset F} (answer : List Bar → Decider E) {k : Nat}
    (hwarm : d₁.bars.take d₁.evalStart = d₂.bars.take d₂.evalStart)
    (hbars : d₁.evalBars.take k = d₂.evalBars.take k) {given : List BarState} (hk : given.length ≤ k) :
    onBarsSeen answer d₁ given = onBarsSeen answer d₂ given := by
  have hseen : ∀ d : Dataset F, d.bars.take (d.evalStart + given.length) =
      d.bars.take d.evalStart ++ (d.evalBars.take k).take given.length := by
    intro d
    rw [List.take_add, List.take_take, Nat.min_eq_left hk]
    rfl
  rw [onBarsSeen, onBarsSeen, hseen, hseen, hwarm, hbars]

/-- Up to a bar that is not the last, a simulation depends on the bars up to it. -/
theorem simulate_causal (d₁ d₂ : Dataset F) (answer : List Bar → Decider E) (cfg : SimConfig) (t : Nat)
    (hstart : d₁.evalStart = d₂.evalStart) (hwarm : d₁.bars.take d₁.evalStart = d₂.bars.take d₂.evalStart)
    (hbars : d₁.evalBars.take (t + 1) = d₂.evalBars.take (t + 1))
    (h₁ : t + 1 < d₁.evalBars.length) (h₂ : t + 1 < d₂.evalBars.length) :
    (simulateRun d₁ (onBarsSeen answer d₁) cfg).1.take (t + 1) =
        (simulateRun d₂ (onBarsSeen answer d₂) cfg).1.take (t + 1) ∧
      ∀ outcome₁ outcome₂, simulate d₁ (onBarsSeen answer d₁) cfg = .ok outcome₁ →
        simulate d₂ (onBarsSeen answer d₂) cfg = .ok outcome₂ →
        outcome₁.positions.take (t + 1) = outcome₂.positions.take (t + 1) ∧
          tradesUpTo t outcome₁.trades = tradesUpTo t outcome₂.trades := by
  have hcommon := runBars_congr (onBarsSeen answer d₁) (onBarsSeen answer d₂) (stopOffset cfg)
    d₁.evalStart (fun given hk => onBarsSeen_congr answer hwarm hbars hk) h₁ h₂
    (d₁.evalBars.take (t + 1)) 0 .init (by rw [Nat.zero_add]; exact List.length_take_le _ _) rfl
  rcases hs : runBars (onBarsSeen answer d₁) (stopOffset cfg) d₁.evalStart d₁.evalBars.length
    (d₁.evalBars.take (t + 1)) 0 .init with ⟨s, status⟩
  obtain ⟨hgiven₁, hout₁⟩ := simulateRun_upTo d₁ (onBarsSeen answer d₁) cfg h₁ hs
  rw [hs, hbars, hstart] at hcommon
  obtain ⟨hgiven₂, hout₂⟩ := simulateRun_upTo d₂ (onBarsSeen answer d₂) cfg h₂ hcommon.symm
  refine ⟨hgiven₁.trans hgiven₂.symm, fun outcome₁ outcome₂ ho₁ ho₂ => ?_⟩
  obtain ⟨hp₁, ht₁⟩ := hout₁ outcome₁ ho₁
  obtain ⟨hp₂, ht₂⟩ := hout₂ outcome₂ ho₂
  exact ⟨hp₁.trans hp₂.symm, ht₁.trans ht₂.symm⟩

/-- Both datasets begin with the same bars, on the last of which a trade is closed. -/
def sampleFuture (last : List Bar) : Dataset Unit :=
  .ofBars (fun _ => ()) ([.flat 0 100 101, .flat 300 100 101, .flat 600 120 121] ++ last) 0

/-- A decider that is long on the first bar only. -/
def sampleAnswer (bars : List Bar) : Decider Unit := fun _ => .ok (if bars.length ≤ 1 then 1 else 0)

theorem sampleFuture_causal :
    let short := simulate (sampleFuture [.flat 900 110 111])
      (onBarsSeen sampleAnswer (sampleFuture [.flat 900 110 111]))
      ⟨1⟩
    let long := simulate (sampleFuture [.flat 900 90 91, .flat 1200 1 2])
      (onBarsSeen sampleAnswer (sampleFuture [.flat 900 90 91, .flat 1200 1 2])) ⟨1⟩
    ∀ outcome₁ outcome₂, short = .ok outcome₁ → long = .ok outcome₂ →
      outcome₁.positions.take 3 = outcome₂.positions.take 3 ∧
        tradesUpTo 2 outcome₁.trades = tradesUpTo 2 outcome₂.trades :=
  (simulate_causal (sampleFuture [.flat 900 110 111]) (sampleFuture [.flat 900 90 91, .flat 1200 1 2])
    sampleAnswer ⟨1⟩ 2 rfl rfl rfl (by decide) (by decide)).2

end AutoTrader.Sim
