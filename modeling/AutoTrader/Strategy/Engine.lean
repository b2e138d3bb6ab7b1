import AutoTrader.App.Liquidation
import AutoTrader.Lib.Group
import AutoTrader.Strategy.ExitRules
import AutoTrader.Strategy.SwingLlm

/-!
# The strategy engine

The engine passes price events, warm-up events and macro updates to its strategies. A price event asks each strategy
that is not disabled for a signal, and then for the exits of its open positions, which the event loop reads from the
database just before. `exits_right` says of every run of an engine which trades are named.

A signal or an exit is sent in the order in which the engine sends it. The channels are never closed.
-/

namespace AutoTrader

/-! ## Strategies -/

/-- A rule strategy in some state. -/
inductive RuleState where
  | bbMeanRevertV1 (s : HistoryStrategy)
  | donchianTrendV1 (s : HistoryStrategy)
  | donchianTrendEvolveV1 (s : DonchianTrendEvolveV1)
  | squeezeMomentumV1 (s : SqueezeMomentumV1)
  | fxNewV1 (s : FxNewV1)

namespace RuleState

/-- The name a strategy was registered under. -/
def name : RuleState → String
  | bbMeanRevertV1 s => s.name
  | donchianTrendV1 s => s.name
  | donchianTrendEvolveV1 s => s.name
  | squeezeMomentumV1 s => s.name
  | fxNewV1 s => s.name

/-- What a price event does to each strategy. -/
def onPrice (stdDev : Decimal → Option Decimal) (event : PriceEvent) : RuleState → TickOutcome × RuleState
  | bbMeanRevertV1 s => ((BbMeanRevertV1.strategy stdDev).step event s).map id bbMeanRevertV1
  | donchianTrendV1 s => (DonchianTrendV1.strategy.step event s).map id donchianTrendV1
  | donchianTrendEvolveV1 s => (DonchianTrendEvolveV1.strategy.step event s).map id donchianTrendEvolveV1
  | squeezeMomentumV1 s => ((SqueezeMomentumV1.strategy stdDev).step event s).map id squeezeMomentumV1
  | fxNewV1 s => (FxNewV1.strategy.step event s).map id fxNewV1

/-- What a warmup candle does to each strategy. -/
def warm (stdDev : Decimal → Option Decimal) (event : PriceEvent) : RuleState → RuleState
  | bbMeanRevertV1 s => bbMeanRevertV1 ((BbMeanRevertV1.strategy stdDev).warm event s)
  | donchianTrendV1 s => donchianTrendV1 (DonchianTrendV1.strategy.warm event s)
  | donchianTrendEvolveV1 s => donchianTrendEvolveV1 (DonchianTrendEvolveV1.strategy.warm event s)
  | squeezeMomentumV1 s => squeezeMomentumV1 ((SqueezeMomentumV1.strategy stdDev).warm event s)
  | fxNewV1 s => fxNewV1 (FxNewV1.strategy.warm event s)

/-- The exits that each strategy asks for. -/
def onOpenPositions (positions : List Position) (event : PriceEvent) : RuleState → List ExitSignal
  | bbMeanRevertV1 s => BbMeanRevertV1.onOpenPositions s positions event
  | donchianTrendV1 s => DonchianTrendV1.onOpenPositions s positions event
  | donchianTrendEvolveV1 s => DonchianTrendEvolveV1.onOpenPositions s positions event
  | squeezeMomentumV1 s => SqueezeMomentumV1.onOpenPositions s positions event
  | fxNewV1 s => FxNewV1.onOpenPositions s positions event

end RuleState

namespace RuleStrategy

/-- The strategy before its first event. -/
def start (name : String) (pairs : List Pair) : RuleStrategy → RuleState
  | bbMeanRevertV1 => .bbMeanRevertV1 (.new name pairs)
  | donchianTrendV1 => .donchianTrendV1 (.new name pairs)
  | donchianTrendEvolveV1 params => .donchianTrendEvolveV1 (.new name pairs params)
  | squeezeMomentumV1 => .squeezeMomentumV1 (.new name pairs)
  | fxNewV1 => .fxNewV1 (.new name pairs)

/-- The reason that each strategy gives for its exits. -/
def exitReason : RuleStrategy → StrategyExitReason
  | bbMeanRevertV1 => .meanReached
  | donchianTrendV1 => .trailingChannel
  | donchianTrendEvolveV1 _ => .trailingChannel
  | squeezeMomentumV1 => .trailingMa
  | fxNewV1 => .trailingChannel

/-- When a strategy for some pairs asks to close a trade at an event, which is the last of those it has been shown. -/
def ExitDue (pairs : List Pair) (shown : List PriceEvent) (event : PriceEvent) (t : Trade) : RuleStrategy → Prop
  | bbMeanRevertV1 =>
    BbMeanRevertV1.ExitDue (HistoryStrategy.taken BbMeanRevertV1.timeframe pairs event.pair shown) event t
  | donchianTrendV1 =>
    DonchianTrend.ExitDue DonchianTrendV1.exitChannel
      (HistoryStrategy.taken DonchianTrend.timeframe pairs event.pair shown) event t
  | donchianTrendEvolveV1 params =>
    DonchianTrend.ExitDue (DonchianTrendEvolveV1.new "" pairs params).exitChannel
      (HistoryStrategy.taken DonchianTrend.timeframe pairs event.pair shown) event t
  | squeezeMomentumV1 =>
    SqueezeMomentumV1.ExitDue (HistoryStrategy.taken SqueezeMomentumV1.timeframe pairs event.pair shown) event t
  | fxNewV1 => FxNewV1.ExitDue pairs (FxNewV1.madeM15 pairs event.pair shown) event t

/-- What a strategy has kept of the events it has been shown. -/
def Saw (name : String) (pairs : List Pair) (shown : List PriceEvent) : RuleStrategy → RuleState → Prop
  | bbMeanRevertV1, .bbMeanRevertV1 s =>
    s.Saw BbMeanRevertV1.timeframe BbMeanRevertV1.historyLen name pairs shown
  | donchianTrendV1, .donchianTrendV1 s => s.Saw DonchianTrend.timeframe DonchianTrend.historyLen name pairs shown
  | donchianTrendEvolveV1 params, .donchianTrendEvolveV1 s =>
    s.Saw DonchianTrend.timeframe DonchianTrend.historyLen name pairs shown ∧
      s.exitChannel = (DonchianTrendEvolveV1.new "" pairs params).exitChannel
  | squeezeMomentumV1, .squeezeMomentumV1 s =>
    s.Saw SqueezeMomentumV1.timeframe SqueezeMomentumV1.historyLen name pairs shown
  | fxNewV1, .fxNewV1 s => s.Saw name pairs shown
  | _, _ => False

variable {stdDev : Decimal → Option Decimal} {name : String} {pairs : List Pair} {shown : List PriceEvent}

theorem saw_start (kind : RuleStrategy) (name : String) (pairs : List Pair) :
    kind.Saw name pairs [] (kind.start name pairs) := by
  cases kind with
  | bbMeanRevertV1 => exact HistoryStrategy.saw_new ..
  | donchianTrendV1 => exact HistoryStrategy.saw_new ..
  | donchianTrendEvolveV1 params => exact ⟨HistoryStrategy.saw_new .., rfl⟩
  | squeezeMomentumV1 => exact HistoryStrategy.saw_new ..
  | fxNewV1 => exact FxNewV1.saw_new name pairs

theorem Saw.name_eq {kind : RuleStrategy} {s : RuleState} (h : kind.Saw name pairs shown s) : s.name = name := by
  cases kind <;> cases s <;> first | exact h.elim | skip
  · exact HistoryStrategy.Saw.name_eq h
  · exact HistoryStrategy.Saw.name_eq h
  · exact HistoryStrategy.Saw.name_eq h.1
  · exact HistoryStrategy.Saw.name_eq h
  · exact FxNewV1.Saw.name_eq h

/-- A strategy keeps of a live event what it keeps of one in the warm-up. -/
theorem Saw.warm {kind : RuleStrategy} {s : RuleState} (h : kind.Saw name pairs shown s) (event : PriceEvent) :
    kind.Saw name pairs (shown ++ [event]) (s.warm stdDev event) := by
  cases kind <;> cases s <;> first | exact h.elim | skip
  · exact HistoryStrategy.Saw.warmup h event
  · exact HistoryStrategy.Saw.warmup h event
  · exact ⟨HistoryStrategy.Saw.warmup h.1 event, h.2⟩
  · rename_i s
    show HistoryStrategy.Saw _ _ _ _ _ (SqueezeMomentumV1.warmup stdDev event s).toHistoryStrategy
    unfold SqueezeMomentumV1.warmup
    split
    · rename_i htakes
      have hpush := HistoryStrategy.Saw.push h htakes
      dsimp only
      split <;> exact hpush
    · rename_i hskip
      exact HistoryStrategy.Saw.skip h hskip
  · rename_i s
    show FxNewV1.Saw _ _ _ (FxNewV1.warmup event s)
    rw [FxNewV1.warmup_eq_onPrice]
    exact FxNewV1.Saw.onPrice h event

theorem Saw.onPrice {kind : RuleStrategy} {s : RuleState} (h : kind.Saw name pairs shown s) (event : PriceEvent) :
    kind.Saw name pairs (shown ++ [event]) (s.onPrice stdDev event).2 := by
  cases kind <;> cases s <;> first | exact h.elim | skip
  · exact HistoryStrategy.Saw.onPrice h _ event
  · exact HistoryStrategy.Saw.onPrice h _ event
  · exact ⟨HistoryStrategy.Saw.onPrice h.1 _ event, h.2⟩
  · rename_i s
    show HistoryStrategy.Saw _ _ _ _ _ (SqueezeMomentumV1.onPrice stdDev event s).2.toHistoryStrategy
    unfold SqueezeMomentumV1.onPrice
    split
    · rename_i htakes
      have hpush := HistoryStrategy.Saw.push h htakes
      dsimp only
      split
      · exact hpush
      · split
        · exact hpush
        · split <;> exact hpush
    · rename_i hskip
      exact HistoryStrategy.Saw.skip h hskip
  · exact FxNewV1.Saw.onPrice h event

theorem Saw.exits {kind : RuleStrategy} {s : RuleState} (h : kind.Saw name pairs shown s) (positions : List Position)
    (event : PriceEvent) :
    ExitsExactly name event kind.exitReason (fun t => kind.ExitDue pairs shown event t) positions
      (s.onOpenPositions positions event) := by
  cases kind <;> cases s <;> first | exact h.elim | skip
  · exact BbMeanRevertV1.onOpenPositions_exactly h positions event
  · exact DonchianTrend.onOpenPositions_exactly (by decide) (by decide) h positions event
  · rename_i params s
    have hchannel : s.exitChannel = max 5 (min (params.exitChannel.getD 10) 15) := h.2
    have hlen : DonchianTrend.historyLen = 200 := rfl
    have hexact :=
      @DonchianTrend.onOpenPositions_exactly s.exitChannel (by omega) (by omega) _ _ _ _ h.1 positions event
    rw [h.2] at hexact
    show ExitsExactly _ _ _ _ _ (DonchianTrend.onOpenPositions s.exitChannel s.toHistoryStrategy positions event)
    rw [h.2]
    exact hexact
  · exact SqueezeMomentumV1.onOpenPositions_exactly h positions event
  · exact FxNewV1.onOpenPositions_exactly h positions event

end RuleStrategy

/-- A strategy as a slot of the engine has it. What the outside gives `SwingLLMv1` at its `n`-th price event comes with
the strategy. -/
inductive AnyStrategy where
  | rule (s : RuleState)
  | swingLlmV1 (s : SwingLLMv1) (outside : Nat → LlmCall) (n : Nat)

namespace AnyStrategy

/-- The name a strategy was registered under. -/
def name : AnyStrategy → String
  | rule s => s.name
  | swingLlmV1 s _ _ => s.name

variable (stdDev : Decimal → Option Decimal) (toDecimal : Rat → Except Error Decimal)

/-- What a price event does. -/
def onPrice (event : PriceEvent) : AnyStrategy → TickOutcome × AnyStrategy
  | rule s => (s.onPrice stdDev event).map id rule
  | swingLlmV1 s outside n =>
    let answer := s.onPrice toDecimal event (outside n)
    (.ok answer.1.2, swingLlmV1 answer.2 outside (n + 1))

/-- What a macro update does: only the language model reads it. -/
def onMacroUpdate (summary : String) : AnyStrategy → AnyStrategy
  | rule s => rule s
  | swingLlmV1 s outside n => swingLlmV1 (s.onMacroUpdate summary) outside n

/-- What the warmup candles do: the language model has no warmup. -/
def warmup (events : List PriceEvent) : AnyStrategy → AnyStrategy
  | rule s => rule (events.foldl (fun s event => s.warm stdDev event) s)
  | swingLlmV1 s outside n => swingLlmV1 s outside n

/-- The exits that a strategy asks for. -/
def onOpenPositions (positions : List Position) (event : PriceEvent) : AnyStrategy → List ExitSignal
  | rule s => s.onOpenPositions positions event
  | swingLlmV1 _ _ _ => []

end AnyStrategy

/-! ## The engine -/

/-- A registered strategy with its mode. -/
structure StrategySlot where
  strategy : AnyStrategy
  mode : String

/-- The strategy takes part in the dispatch. -/
def StrategySlot.Enabled (slot : StrategySlot) : Prop := slot.mode ≠ "disabled"

instance : DecidablePred StrategySlot.Enabled := fun slot => inferInstanceAs (Decidable (slot.mode ≠ "disabled"))

/-- The open trades of an exchange and a pair, each with its account, newest entry first. -/
def listOpenWithAccountNameForPair (exchange : Exchange) (pair : Pair) : Tx (List OpenTradeWithAccount) := do
  let openTrades ← listOpenWithAccountName
  return openTrades.filter fun owned => owned.trade.exchange = exchange ∧ owned.trade.pair = pair

/-- The open trades by the strategy that opened them. -/
def groupPositionsByStrategy (rows : List OpenTradeWithAccount) : List (String × List Position) :=
  Lib.groupBy (fun p : Position => p.trade.strategyName) (rows.map fun r => ⟨r.trade⟩)

/-- The positions of each strategy, or none at all if they cannot be read. -/
def loadPositionsByStrategy (read : Except Error (List OpenTradeWithAccount)) : List (String × List Position) :=
  match read with
  | .ok rows => groupPositionsByStrategy rows
  | .error _ => []

/-- The positions of one strategy. -/
def positionsOf (byStrategy : List (String × List Position)) (name : String) : List Position :=
  ((byStrategy.find? fun bucket => bucket.1 = name).map Prod.snd).getD []

/-- The engine: its strategies in the order of their registration. -/
structure StrategyEngine where
  slots : List StrategySlot

/-- What comes of a price event: the signals that were sent, and the engine with the exits unless a strategy
panicked. -/
structure Dispatched where
  signals : List PriceSignal
  outcome : Except Panic (List StrategySlot × List ExitSignal)

namespace StrategyEngine

/-- The engine without a strategy. -/
def new : StrategyEngine := ⟨[]⟩

/-- A strategy is registered. -/
def addStrategy (engine : StrategyEngine) (strategy : AnyStrategy) (mode : String) : StrategyEngine :=
  ⟨engine.slots ++ [⟨strategy, mode⟩]⟩

variable (stdDev : Decimal → Option Decimal) (toDecimal : Rat → Except Error Decimal)

/-- Every strategy sees the warmup candles. -/
def warmup (events : List PriceEvent) (engine : StrategyEngine) : StrategyEngine :=
  ⟨engine.slots.map fun slot => { slot with strategy := slot.strategy.warmup stdDev events }⟩

/-- Every strategy sees the macro update. -/
def onMacroUpdate (summary : String) (engine : StrategyEngine) : StrategyEngine :=
  ⟨engine.slots.map fun slot => { slot with strategy := slot.strategy.onMacroUpdate summary }⟩

/-- The slots one after another, each with its signal and then its exits. -/
def dispatch (event : PriceEvent) (byStrategy : List (String × List Position)) : List StrategySlot → Dispatched
  | [] => ⟨[], .ok ([], [])⟩
  | slot :: slots =>
    if slot.mode = "disabled" then
      let rest := dispatch event byStrategy slots
      ⟨rest.signals, rest.outcome.map fun done => (slot :: done.1, done.2)⟩
    else
      let answer := slot.strategy.onPrice stdDev toDecimal event
      match answer.1 with
      | .error panic => ⟨[], .error panic⟩
      | .ok signal =>
        let exits := answer.2.onOpenPositions (positionsOf byStrategy answer.2.name) event
        let rest := dispatch event byStrategy slots
        ⟨signal.toList ++ rest.signals, rest.outcome.map fun done =>
          ({ slot with strategy := answer.2 } :: done.1, exits ++ done.2)⟩

/-- A price event goes to every enabled strategy, with its positions. -/
def onPriceWithPositions (event : PriceEvent) (byStrategy : List (String × List Position)) (engine : StrategyEngine) :
    List PriceSignal × Except Panic (StrategyEngine × List ExitSignal) :=
  let dispatched := dispatch stdDev toDecimal event byStrategy engine.slots
  (dispatched.signals, dispatched.outcome.map fun done => (⟨done.1⟩, done.2))

end StrategyEngine

/-- What the event loop and its start hand to the engine. A price event comes with the answer of the database to the
question for the open trades. -/
inductive EngineInput where
  | warmup (events : List PriceEvent)
  | price (event : PriceEvent) (read : Except Error (List OpenTradeWithAccount))
  | macroUpdate (summary : String)

namespace StrategyEngine

variable (stdDev : Decimal → Option Decimal) (toDecimal : Rat → Except Error Decimal)

/-- One input, and the exits that are sent of it. -/
def step (engine : StrategyEngine) : EngineInput → Except Panic (StrategyEngine × List ExitSignal)
  | .warmup events => .ok (engine.warmup stdDev events, [])
  | .price event read => (engine.onPriceWithPositions stdDev toDecimal event (loadPositionsByStrategy read)).2
  | .macroUpdate summary => .ok (engine.onMacroUpdate summary, [])

/-- The engine after some inputs, or the panic that has ended it. -/
def after (engine : StrategyEngine) (inputs : List EngineInput) : Except Panic StrategyEngine :=
  inputs.foldlM (fun engine input => (engine.step stdDev toDecimal input).map Prod.fst) engine

end StrategyEngine

/-! ## What the engine has shown a strategy -/

/-- A strategy as it is registered. -/
inductive Registered where
  | rule (kind : RuleStrategy) (name : String) (pairs : List Pair)
  | swingLlmV1 (name : String) (pairs : List Pair) (holdingDaysMax : Nat) (outside : Nat → LlmCall)

namespace Registered

/-- The name of a registration. -/
def name : Registered → String
  | rule _ name _ => name
  | swingLlmV1 name _ _ _ => name

/-- The strategy that a registration starts. -/
def start : Registered → AnyStrategy
  | rule kind name pairs => .rule (kind.start name pairs)
  | swingLlmV1 name pairs holdingDaysMax outside => .swingLlmV1 (.new name pairs holdingDaysMax) outside 0

/-- When the strategy asks to close a trade, and for which reason. -/
def ExitDue (shown : List PriceEvent) (event : PriceEvent) (t : Trade) (reason : StrategyExitReason) :
    Registered → Prop
  | rule kind _ pairs => kind.ExitDue pairs shown event t ∧ reason = kind.exitReason
  | swingLlmV1 _ _ _ _ => False

/-- A strategy that has seen the events `shown` since its registration. -/
def Saw (shown : List PriceEvent) : Registered → AnyStrategy → Prop
  | rule kind name pairs, .rule s => kind.Saw name pairs shown s
  | swingLlmV1 name _ _ _, .swingLlmV1 s _ _ => s.name = name
  | _, _ => False

end Registered

/-- The events that some inputs show to the strategy of a slot. A disabled one sees the warm-up alone. -/
def shownTo (mode : String) (inputs : List EngineInput) : List PriceEvent :=
  inputs.flatMap fun input => match input with
    | .warmup events => events
    | .price event _ => if mode = "disabled" then [] else [event]
    | .macroUpdate _ => []

/-- The exits of a price event: each names a trade that the database gave as open on the exchange and the pair of the
event, which is of an enabled strategy and due by what that strategy has been shown; no such trade is left out; and
none is named twice, if no two enabled strategies have one name. -/
structure ExitsRight (slots : List (Registered × String)) (inputs : List EngineInput) (event : PriceEvent)
    (rows : List OpenTradeWithAccount) (exits : List ExitSignal) : Prop where
  sound : ∀ exit ∈ exits, ∃ slot ∈ slots, slot.2 ≠ "disabled" ∧ ∃ r ∈ rows, r.trade.id = exit.tradeId ∧
    r.trade.strategyName = slot.1.name ∧ r.trade.exchange = event.exchange ∧ r.trade.pair = event.pair ∧
    slot.1.ExitDue (shownTo slot.2 inputs ++ [event]) event r.trade exit.reason ∧ exit.closePrice = event.candle.close
  complete : ∀ slot ∈ slots, slot.2 ≠ "disabled" → ∀ r ∈ rows, ∀ reason, r.trade.strategyName = slot.1.name →
    slot.1.ExitDue (shownTo slot.2 inputs ++ [event]) event r.trade reason →
    ({ tradeId := r.trade.id, reason, closePrice := event.candle.close } : ExitSignal) ∈ exits
  once : ((slots.filter fun slot => slot.2 ≠ "disabled").map fun slot => slot.1.name).Nodup →
    (exits.map ExitSignal.tradeId).Nodup

/-! ## The positions of a strategy -/

theorem groupedByStrategy (rows : List OpenTradeWithAccount) :
    Lib.Grouped (fun p : Position => p.trade.strategyName) (rows.map fun r => ⟨r.trade⟩)
      (groupPositionsByStrategy rows) :=
  Lib.grouped_groupBy _

theorem positionsOf_group (rows : List OpenTradeWithAccount) (name : String) :
    positionsOf (loadPositionsByStrategy (.ok rows)) name =
      (rows.map fun r => Position.mk r.trade).filter fun p => p.trade.strategyName = name := by
  have hgrouped := groupedByStrategy rows
  unfold positionsOf loadPositionsByStrategy
  dsimp only
  cases hfind : (groupPositionsByStrategy rows).find? fun bucket => bucket.1 = name with
  | some bucket =>
    have hname : bucket.1 = name := by simpa using List.find?_some hfind
    show bucket.2 = _
    rw [← hname]
    exact hgrouped.bucket bucket.1 bucket.2 (List.mem_of_find?_eq_some hfind)
  | none =>
    show [] = _
    rw [eq_comm, List.filter_eq_nil_iff]
    intro p hp hname
    obtain ⟨bucket, hbucket, heq⟩ := List.mem_map.mp ((hgrouped.keys p.trade.strategyName).mpr (List.mem_map_of_mem hp))
    refine absurd (List.find?_eq_none.mp hfind bucket hbucket) (not_not.mpr ?_)
    simpa [heq] using hname

/-- The open trades come from different rows. -/
theorem listForPair_ok {exchange : Exchange} {pair : Pair} {now : DateTime} {db db' : Db}
    {rows : List OpenTradeWithAccount}
    (h : (listOpenWithAccountNameForPair exchange pair).run now db = .ok (rows, db')) :
    (∀ r ∈ rows, r.trade.exchange = exchange ∧ r.trade.pair = pair) ∧ (rows.map fun r => r.trade.id).Nodup := by
  simp only [listOpenWithAccountNameForPair, Tx.ok_bind, Tx.run_pure] at h
  obtain ⟨openTrades, db₁, hread, rfl, rfl⟩ := h
  obtain ⟨-, hperm, -⟩ := listOpenWithAccountName_ok hread
  refine ⟨fun r hr => by simpa using (List.mem_filter.mp hr).2, ?_⟩
  have hids : (openTrades.map fun r => r.trade.id).Nodup := by
    have := (hperm.map Trade.id).nodup_iff.mpr (by
      rw [List.map_map]
      exact db.trades.nodup.sublist (List.filter_sublist.map _))
    rwa [List.map_map] at this
  exact hids.sublist (List.filter_sublist.map _)

/-! ## One dispatch -/

namespace Registered

/-- The exits of one strategy at an event. -/
def PartRight (shown : List PriceEvent) (event : PriceEvent) (rows : List OpenTradeWithAccount)
    (part : List ExitSignal) : Registered → Prop
  | rule kind name pairs =>
    ExitsExactly name event kind.exitReason (fun t => kind.ExitDue pairs shown event t)
      ((rows.map fun r => Position.mk r.trade).filter fun p => p.trade.strategyName = name) part
  | swingLlmV1 _ _ _ _ => part = []

variable {stdDev : Decimal → Option Decimal} {toDecimal : Rat → Except Error Decimal} {shown : List PriceEvent}
  {reg : Registered} {s : AnyStrategy}

theorem saw_start (reg : Registered) : reg.Saw [] reg.start := by
  cases reg with
  | rule kind name pairs => exact kind.saw_start name pairs
  | swingLlmV1 name pairs days outside => rfl

theorem Saw.name_eq (h : reg.Saw shown s) : s.name = reg.name := by
  cases reg <;> cases s <;> first | exact h.elim | skip
  · exact RuleStrategy.Saw.name_eq h
  · exact h

theorem Saw.onPrice (h : reg.Saw shown s) (event : PriceEvent) :
    reg.Saw (shown ++ [event]) (s.onPrice stdDev toDecimal event).2 := by
  cases reg <;> cases s <;> first | exact h.elim | skip
  · exact RuleStrategy.Saw.onPrice h event
  · rename_i s outside n
    show (s.onPrice toDecimal event (outside n)).2.name = _
    rcases SwingLLMv1.onPrice_cases toDecimal s event (outside n) with
      ⟨-, heq⟩ | ⟨-, -, answered, signal, heq, -⟩ <;> rw [heq]
    · exact h
    · cases answered <;> exact h

theorem Saw.onMacroUpdate (h : reg.Saw shown s) (summary : String) : reg.Saw shown (s.onMacroUpdate summary) := by
  cases reg <;> cases s <;> first | exact h.elim | exact h

theorem Saw.warmup (h : reg.Saw shown s) (events : List PriceEvent) :
    reg.Saw (shown ++ events) (s.warmup stdDev events) := by
  cases reg <;> cases s <;> first | exact h.elim | exact h | skip
  rename_i kind name pairs s
  change kind.Saw name pairs shown s at h
  show kind.Saw name pairs (shown ++ events) (events.foldl _ s)
  induction events generalizing shown s with
  | nil => simpa using h
  | cons event events ih =>
    have hrest := ih (s.warm stdDev event) (RuleStrategy.Saw.warm h event)
    simpa using hrest

theorem Saw.exits (h : reg.Saw shown s) (event : PriceEvent) (rows : List OpenTradeWithAccount) :
    reg.PartRight shown event rows
      (s.onOpenPositions (positionsOf (loadPositionsByStrategy (.ok rows)) reg.name) event) := by
  rw [positionsOf_group]
  cases reg <;> cases s <;> first | exact h.elim | skip
  · exact RuleStrategy.Saw.exits h _ event
  · rfl

end Registered

/-! ## Runs of the engine -/

/-- The engine with some strategies, each in its mode. -/
def engineOf (slots : List (Registered × String)) : StrategyEngine :=
  slots.foldl (fun engine slot => engine.addStrategy slot.1.start slot.2) .new

/-- A slot of the engine after some inputs. -/
structure SlotSaw (inputs : List EngineInput) (reg : Registered × String) (slot : StrategySlot) : Prop where
  mode_eq : slot.mode = reg.2
  saw : reg.1.Saw (shownTo reg.2 inputs) slot.strategy

/-- The exits of a price event, one part for each slot. -/
structure Parts (slots : List (Registered × String)) (inputs : List EngineInput) (event : PriceEvent)
    (rows : List OpenTradeWithAccount) (parts : List (List ExitSignal)) : Prop where
  each : List.Forall₂ (fun (reg : Registered × String) part =>
    if reg.2 = "disabled" then part = []
    else reg.1.PartRight (shownTo reg.2 inputs ++ [event]) event rows part) slots parts

section

variable {stdDev : Decimal → Option Decimal} {toDecimal : Rat → Except Error Decimal}

theorem shownTo_concat (mode : String) (inputs : List EngineInput) (input : EngineInput) :
    shownTo mode (inputs ++ [input]) = shownTo mode inputs ++ shownTo mode [input] := List.flatMap_append ..

/-- Every slot gets the event unless it is disabled, and answers with its exits. -/
theorem dispatch_kept {slots : List (Registered × String)} {inputs : List EngineInput} {states : List StrategySlot}
    (h : List.Forall₂ (SlotSaw inputs) slots states) (event : PriceEvent)
    (read : Except Error (List OpenTradeWithAccount)) (rows : List OpenTradeWithAccount)
    (hread : loadPositionsByStrategy read = loadPositionsByStrategy (.ok rows))
    {states' : List StrategySlot} {exits : List ExitSignal}
    (hdone : (StrategyEngine.dispatch stdDev toDecimal event (loadPositionsByStrategy read) states).outcome =
      .ok (states', exits)) :
    List.Forall₂ (SlotSaw (inputs ++ [.price event read])) slots states' ∧
      ∃ parts, exits = parts.flatten ∧ Parts slots inputs event rows parts := by
  induction h generalizing states' exits with
  | nil =>
    obtain ⟨rfl, rfl⟩ := Prod.mk.inj (Except.ok.inj hdone)
    exact ⟨.nil, [], rfl, ⟨.nil⟩⟩
  | @cons reg slot slots states hslot _ ih =>
    rw [StrategyEngine.dispatch] at hdone
    by_cases hdisabled : reg.2 = "disabled"
    · rw [if_pos (hslot.mode_eq.trans hdisabled)] at hdone
      obtain ⟨done, hrest, heq⟩ := Lib.map_eq_ok.mp hdone
      obtain ⟨rfl, rfl⟩ := Prod.mk.inj heq
      obtain ⟨hstates, parts, hexits, hparts⟩ := ih hrest
      refine ⟨.cons ⟨hslot.mode_eq, ?_⟩ hstates, [] :: parts, by simp [hexits],
        ⟨.cons (by simp [hdisabled]) hparts.each⟩⟩
      rw [shownTo_concat, show shownTo reg.2 [.price event read] = [] by simp [shownTo, hdisabled],
        List.append_nil]
      exact hslot.saw
    · rw [if_neg (hslot.mode_eq.symm ▸ hdisabled)] at hdone
      have hsaw := @Registered.Saw.onPrice stdDev toDecimal _ _ _ hslot.saw event
      dsimp only at hdone
      generalize slot.strategy.onPrice stdDev toDecimal event = answer at hsaw hdone
      obtain ⟨outcome, strategy⟩ := answer
      cases outcome with
      | error panic => cases hdone
      | ok signal =>
        obtain ⟨done, hrest, heq⟩ := Lib.map_eq_ok.mp hdone
        obtain ⟨rfl, rfl⟩ := Prod.mk.inj heq
        obtain ⟨hstates, parts, hexits, hparts⟩ := ih hrest
        refine ⟨.cons ⟨hslot.mode_eq, ?_⟩ hstates,
          strategy.onOpenPositions (positionsOf (loadPositionsByStrategy read) strategy.name) event :: parts, ?_,
          ⟨.cons ?_ hparts.each⟩⟩
        · rw [shownTo_concat, show shownTo reg.2 [.price event read] = [event] by simp [shownTo, hdisabled]]
          exact hsaw
        · rw [List.flatten_cons, hexits]
        · rw [if_neg hdisabled, hsaw.name_eq, hread]
          exact hsaw.exits event rows

theorem step_kept {slots : List (Registered × String)} {inputs : List EngineInput} {engine : StrategyEngine}
    (h : List.Forall₂ (SlotSaw inputs) slots engine.slots) (input : EngineInput) {engine' : StrategyEngine}
    {exits : List ExitSignal} (hstep : engine.step stdDev toDecimal input = .ok (engine', exits)) :
    List.Forall₂ (SlotSaw (inputs ++ [input])) slots engine'.slots := by
  cases input with
  | warmup events =>
    obtain ⟨rfl, -⟩ := Prod.mk.inj (Except.ok.inj hstep)
    refine List.forall₂_map_right_iff.mpr (h.imp fun reg slot hslot => ⟨hslot.mode_eq, ?_⟩)
    rw [shownTo_concat, show shownTo reg.2 [.warmup events] = events by simp [shownTo]]
    exact hslot.saw.warmup events
  | macroUpdate summary =>
    obtain ⟨rfl, -⟩ := Prod.mk.inj (Except.ok.inj hstep)
    refine List.forall₂_map_right_iff.mpr (h.imp fun reg slot hslot => ⟨hslot.mode_eq, ?_⟩)
    rw [shownTo_concat, show shownTo reg.2 [.macroUpdate summary] = [] by simp [shownTo], List.append_nil]
    exact hslot.saw.onMacroUpdate summary
  | price event read =>
    obtain ⟨done, hdone, heq⟩ := Lib.map_eq_ok.mp hstep
    obtain ⟨rfl, rfl⟩ := Prod.mk.inj heq
    cases read with
    | ok rows => exact (dispatch_kept h event (.ok rows) rows rfl hdone).1
    | error e => exact (dispatch_kept h event (.error e) [] rfl hdone).1

theorem engineOf_saw (slots : List (Registered × String)) :
    List.Forall₂ (SlotSaw []) slots (engineOf slots).slots := by
  have hslots : (engineOf slots).slots = slots.map fun slot => ⟨slot.1.start, slot.2⟩ := by
    unfold engineOf
    induction slots using List.reverseRecOn with
    | nil => rfl
    | append_singleton slots slot ih =>
      rw [List.foldl_append, List.map_append, ← ih]
      rfl
  rw [hslots]
  exact List.forall₂_map_right_iff.mpr (List.forall₂_same.mpr fun slot _ => ⟨rfl, slot.1.saw_start⟩)

/-- A run keeps of every slot what its strategy has been shown. -/
theorem after_saw {slots : List (Registered × String)} {inputs : List EngineInput} {engine : StrategyEngine}
    (h : (engineOf slots).after stdDev toDecimal inputs = .ok engine) :
    List.Forall₂ (SlotSaw inputs) slots engine.slots := by
  induction inputs using List.reverseRecOn generalizing engine with
  | nil =>
    obtain rfl := Except.ok.inj h
    exact engineOf_saw slots
  | append_singleton inputs input ih =>
    unfold StrategyEngine.after at h ih
    rw [List.foldlM_append] at h
    obtain ⟨mid, hmid, hlast⟩ := Lib.bind_eq_ok.mp h
    simp only [List.foldlM_cons, List.foldlM_nil, bind_pure] at hlast
    obtain ⟨⟨engine', exits⟩, hstep, rfl⟩ := Lib.map_eq_ok.mp hlast
    exact step_kept (ih hmid) input hstep

/-! ## Whose trades are named -/

/-- The exits of one slot name trades of its strategy, each once. -/
theorem Registered.PartRight.mem_iff {reg : Registered} {shown : List PriceEvent} {event : PriceEvent}
    {rows : List OpenTradeWithAccount} {part : List ExitSignal} (h : reg.PartRight shown event rows part)
    (exit : ExitSignal) :
    exit ∈ part ↔ ∃ r ∈ rows, r.trade.id = exit.tradeId ∧ r.trade.strategyName = reg.name ∧
      r.trade.pair = event.pair ∧ reg.ExitDue shown event r.trade exit.reason ∧
      exit.closePrice = event.candle.close := by
  cases reg with
  | swingLlmV1 name pairs days outside =>
    obtain rfl : part = [] := h
    simp [Registered.ExitDue]
  | rule kind name pairs =>
    obtain ⟨d, hd, rfl⟩ := h
    unfold exitsWhere
    constructor
    · intro hexit
      obtain ⟨pos, hpos, rfl⟩ := List.mem_map.mp hexit
      simp only [List.mem_filter, List.mem_map, decide_eq_true_eq] at hpos
      obtain ⟨⟨⟨r, hr, rfl⟩, hname⟩, -, hpair, hdue⟩ := hpos
      exact ⟨r, hr, rfl, hname, hpair, ⟨(hd r.trade).mp hdue, rfl⟩, rfl⟩
    · rintro ⟨r, hr, hid, hname, hpair, ⟨hdue, hreason⟩, hclose⟩
      refine List.mem_map.mpr ⟨⟨r.trade⟩, ?_, ?_⟩
      · simp only [List.mem_filter, List.mem_map, decide_eq_true_eq]
        exact ⟨⟨⟨r, hr, rfl⟩, hname⟩, hname, hpair, (hd r.trade).mpr hdue⟩
      · rw [hid, ← hreason, ← hclose]

theorem Registered.PartRight.nodup {reg : Registered} {shown : List PriceEvent} {event : PriceEvent}
    {rows : List OpenTradeWithAccount} {part : List ExitSignal} (h : reg.PartRight shown event rows part)
    (hrows : (rows.map fun r => r.trade.id).Nodup) : (part.map ExitSignal.tradeId).Nodup := by
  cases reg with
  | swingLlmV1 name pairs days outside =>
    obtain rfl : part = [] := h
    exact List.nodup_nil
  | rule kind name pairs =>
    obtain ⟨d, -, rfl⟩ := h
    unfold exitsWhere
    rw [List.map_map]
    refine List.Nodup.sublist ?_ hrows
    have hsub := ((List.filter_sublist (p := fun pos : Position => decide (pos.trade.strategyName = name ∧
      pos.trade.pair = event.pair ∧ d pos.trade = true))).trans (List.filter_sublist (p := fun p : Position =>
        decide (p.trade.strategyName = name)) (l := rows.map fun r => Position.mk r.trade))).map
          fun pos => pos.trade.id
    rw [List.map_map] at hsub
    exact hsub

/-- Distinct strategies name distinct trades. -/
theorem Parts.once {slots : List (Registered × String)} {inputs : List EngineInput} {event : PriceEvent}
    {rows : List OpenTradeWithAccount} {parts : List (List ExitSignal)} (h : Parts slots inputs event rows parts)
    (hrows : (rows.map fun r => r.trade.id).Nodup)
    (hnames : ((slots.filter fun slot => slot.2 ≠ "disabled").map fun slot => slot.1.name).Nodup) :
    (parts.flatten.map ExitSignal.tradeId).Nodup ∧ ∀ exit ∈ parts.flatten, ∃ r ∈ rows,
      r.trade.id = exit.tradeId ∧
        r.trade.strategyName ∈ (slots.filter fun slot => slot.2 ≠ "disabled").map fun slot => slot.1.name := by
  obtain ⟨heach⟩ := h
  induction heach with
  | nil => exact ⟨List.nodup_nil, by simp⟩
  | @cons reg part slots parts hpart _ ih =>
    by_cases hdisabled : reg.2 = "disabled"
    · rw [if_pos hdisabled] at hpart
      rw [List.filter_cons_of_neg (by simpa using hdisabled)] at hnames ⊢
      rw [hpart]
      simpa using ih hnames
    · rw [if_neg hdisabled] at hpart
      rw [List.filter_cons_of_pos (by simpa using hdisabled), List.map_cons] at hnames ⊢
      rw [List.nodup_cons] at hnames
      obtain ⟨hnodup, hnamed⟩ := ih hnames.2
      rw [List.flatten_cons, List.map_append]
      refine ⟨List.nodup_append.mpr ⟨hpart.nodup hrows, hnodup, fun a ha b hb hab => ?_⟩, fun exit hexit => ?_⟩
      · obtain ⟨x, hx, rfl⟩ := List.mem_map.mp ha
        obtain ⟨y, hy, rfl⟩ := List.mem_map.mp hb
        obtain ⟨r, hr, hid, hname, -⟩ := (hpart.mem_iff x).mp hx
        obtain ⟨r', hr', hid', hname'⟩ := hnamed y hy
        have hsame : r = r' := List.inj_on_of_nodup_map hrows hr hr' ((hid.trans hab).trans hid'.symm)
        exact hnames.1 (hname ▸ hsame ▸ hname')
      · rcases List.mem_append.mp hexit with hexit | hexit
        · obtain ⟨r, hr, hid, hname, -⟩ := (hpart.mem_iff exit).mp hexit
          exact ⟨r, hr, hid, hname ▸ List.mem_cons_self⟩
        · obtain ⟨r, hr, hid, hname⟩ := hnamed exit hexit
          exact ⟨r, hr, hid, List.mem_cons_of_mem _ hname⟩

theorem Parts.mem_iff {slots : List (Registered × String)} {inputs : List EngineInput} {event : PriceEvent}
    {rows : List OpenTradeWithAccount} {parts : List (List ExitSignal)} (h : Parts slots inputs event rows parts)
    (exit : ExitSignal) :
    exit ∈ parts.flatten ↔ ∃ slot ∈ slots, slot.2 ≠ "disabled" ∧ ∃ r ∈ rows, r.trade.id = exit.tradeId ∧
      r.trade.strategyName = slot.1.name ∧ r.trade.pair = event.pair ∧
      slot.1.ExitDue (shownTo slot.2 inputs ++ [event]) event r.trade exit.reason ∧
      exit.closePrice = event.candle.close := by
  obtain ⟨heach⟩ := h
  induction heach with
  | nil => simp
  | @cons reg part slots parts hpart _ ih =>
    rw [List.flatten_cons, List.mem_append, ih]
    simp only [List.exists_mem_cons_iff]
    by_cases hdisabled : reg.2 = "disabled"
    · rw [if_pos hdisabled] at hpart
      simp [hpart, hdisabled]
    · rw [if_neg hdisabled] at hpart
      rw [hpart.mem_iff]
      simp only [ne_eq, hdisabled, not_false_eq_true, true_and]

end

/-- However an engine was warmed up and whatever it was handed since: the exits of the next price event, when the open
trades are read from the database, are right. -/
theorem exits_right (stdDev : Decimal → Option Decimal) (toDecimal : Rat → Except Error Decimal)
    (slots : List (Registered × String)) (inputs : List EngineInput) (event : PriceEvent)
    {engine engine' : StrategyEngine} {now : DateTime} {db db' : Db} {rows : List OpenTradeWithAccount}
    {exits : List ExitSignal} (hrun : (engineOf slots).after stdDev toDecimal inputs = .ok engine)
    (hread : (listOpenWithAccountNameForPair event.exchange event.pair).run now db = .ok (rows, db'))
    (hstep : engine.step stdDev toDecimal (.price event (.ok rows)) = .ok (engine', exits)) :
    ExitsRight slots inputs event rows exits := by
  obtain ⟨done, hdone, heq⟩ := Lib.map_eq_ok.mp hstep
  obtain ⟨-, rfl⟩ := Prod.mk.inj heq
  obtain ⟨-, parts, hexits, hparts⟩ := dispatch_kept (after_saw hrun) event (.ok rows) rows rfl hdone
  obtain ⟨hmarket, hids⟩ := listForPair_ok hread
  rw [hexits]
  refine ⟨fun exit hexit => ?_, fun slot hslot henabled r hr reason hname hdue => ?_, fun hnames =>
    (hparts.once hids hnames).1⟩
  · obtain ⟨slot, hslot, henabled, r, hr, hid, hname, hpair, hdue, hclose⟩ := (hparts.mem_iff exit).mp hexit
    exact ⟨slot, hslot, henabled, r, hr, hid, hname, (hmarket r hr).1, hpair, hdue, hclose⟩
  · exact (hparts.mem_iff _).mpr ⟨slot, hslot, henabled, r, hr, rfl, hname, (hmarket r hr).2, hdue, rfl⟩

/-! ## A position that is closed at the average -/

/-- The `n`-th five-minute bar of a sample. -/
def sampleM5Bar (n : Nat) (close : Decimal) : PriceEvent :=
  let timestamp := minutes (5 * n)
  { pair := "USD_JPY", exchange := .gmoFx, timestamp
    candle :=
      { pair := "USD_JPY", exchange := .gmoFx, timeframe := "M5", «open» := close, high := close + 1
        low := close - 1, close, volume := none, bestBid := none, bestAsk := none, timestamp } }

/-- Two strategies, the second one disabled. -/
def sampleSlots : List (Registered × String) :=
  [(.rule .bbMeanRevertV1 "bb" ["USD_JPY"], "paper"), (.rule .donchianTrendV1 "donchian" ["USD_JPY"], "disabled")]

/-- 19 candles at one price. -/
def sampleShown : List EngineInput := [.warmup ((List.range 19).map fun n => sampleM5Bar n 100)]

/-- A long position from below that price. -/
def sampleHeld : TradeRow where
  id := 7
  accountId := 1
  strategyName := "bb"
  pair := "USD_JPY"
  exchange := .gmoFx
  direction := .long
  entryPrice := 90
  exitPrice := none
  stopLoss := 85
  takeProfit := none
  quantity := 1
  leverage := 1
  fees := 0
  entryAt := 0
  exitAt := none
  pnlAmount := none
  exitReason := none
  status := .open
  maxHoldUntil := none
  exchangePositionId := none
  stopOrderId := none
  closingStartedAt := none

/-- A database with one open trade. -/
def sampleExitDb : Db where
  trades := ⟨[sampleHeld], by decide⟩
  accounts := .empty
  accountEvents := []
  notifications := []

theorem sampleHeld_read : (listOpenWithAccountNameForPair .gmoFx "USD_JPY").run 0 sampleExitDb =
    .ok ([⟨sampleHeld.toTrade, none⟩], sampleExitDb) := by
  refine Tx.ok_bind.mpr ⟨[⟨sampleHeld.toTrade, none⟩], sampleExitDb, ?_, rfl⟩
  refine Tx.ok_bind.mpr ⟨sampleExitDb, sampleExitDb, rfl, Tx.run_pure.mpr ⟨?_, rfl⟩⟩
  exact List.mergeSort_singleton _

theorem sampleHeld_exits_right : ∃ exits, exits = [⟨7, .meanReached, 101⟩] ∧
    ExitsRight sampleSlots sampleShown (sampleM5Bar 19 101) [⟨sampleHeld.toTrade, none⟩] exits := by
  have hexits : (((engineOf sampleSlots).after (fun _ => none) (fun _ => .error []) sampleShown).bind fun engine =>
      (engine.step (fun _ => none) (fun _ => .error []) (.price (sampleM5Bar 19 101)
        (.ok [⟨sampleHeld.toTrade, none⟩]))).map Prod.snd).toOption = some [⟨7, .meanReached, 101⟩] := by
    decide +kernel
  generalize hrun : (engineOf sampleSlots).after (fun _ => none) (fun _ => .error []) sampleShown = run at hexits
  cases run with
  | error panic => cases hexits
  | ok engine =>
    change ((engine.step (fun _ => none) (fun _ => .error []) (.price (sampleM5Bar 19 101)
      (.ok [⟨sampleHeld.toTrade, none⟩]))).map Prod.snd).toOption = _ at hexits
    generalize hstep : engine.step (fun _ => none) (fun _ => .error []) (.price (sampleM5Bar 19 101)
      (.ok [⟨sampleHeld.toTrade, none⟩])) = answer at hexits
    cases answer with
    | error panic => cases hexits
    | ok answer =>
      obtain ⟨engine', exits⟩ := answer
      exact ⟨exits, Option.some.inj hexits,
        exits_right _ _ sampleSlots sampleShown (sampleM5Bar 19 101) hrun sampleHeld_read hstep⟩

end AutoTrader
