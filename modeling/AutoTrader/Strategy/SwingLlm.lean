import AutoTrader.Core.Error
import AutoTrader.Lib.Fallible
import AutoTrader.Strategy.CandleHistory
import Mathlib.Algebra.Order.Field.Rat
import Mathlib.Data.List.Chain
import Mathlib.Data.List.DropRight
import Mathlib.Logic.Function.Basic

/-!
# `SwingLLMv1`

The strategy that asks a language model. It asks about a pair only when the pair is due (`shouldCheck`): four hours
after an answer, and sooner after failures, with a delay that doubles. `attempts_iff_due` says of every sequence of
events which of them are asked about, by the attempts on the same pair alone.

The two readings of the clock and the reply are what the outside gives a price event (`Call`). A floating-point
number of the reply is an exact rational, and its conversion to an amount is a parameter.
-/

namespace AutoTrader

/-- The microseconds of `n` minutes. -/
def minutes (n : Int) : Int := seconds (n * 60)

/-- The fields of the reply that are read, each where it is there and of its type. -/
structure LlmDecision where
  action : Option String
  confidence : Option Rat
  slPips : Option Rat
  tpPips : Option Rat
  deriving DecidableEq, Repr

/-- Direction, entry price, the two distances and the confidence. -/
structure SignalParams where
  direction : Direction
  entry : Decimal
  sl : Decimal
  tp : Decimal
  confidence : Rat
  deriving DecidableEq, Repr

/-- The largest offset of a stop or a target. -/
def maxPips : Rat := 10000

/-- Both offsets are positive and at most `maxPips`. -/
def PipOffsetsAreTradable (slPips tpPips : Rat) : Prop :=
  slPips > 0 ∧ tpPips > 0 ∧ slPips ≤ maxPips ∧ tpPips ≤ maxPips

instance (slPips tpPips : Rat) : Decidable (PipOffsetsAreTradable slPips tpPips) :=
  inferInstanceAs (Decidable (_ ∧ _ ∧ _ ∧ _))

/-- The price is positive. -/
def EntryPriceIsTradable (price : Decimal) : Prop := price > 0

instance (price : Decimal) : Decidable (EntryPriceIsTradable price) := inferInstanceAs (Decidable (price > 0))

/-- The size of a pip of a pair. -/
def pipSize (pair : Pair) : Decimal := if "JPY".toList <:+: pair.toList then 1 / 100 else 1 / 10000

/-- The direction of an action. -/
def directionOfAction (action : String) : Option Direction :=
  if action = "long" then some .long else if action = "short" then some .short else none

variable (toDecimal : Rat → Except Error Decimal)

/-- The order that a decision asks for. -/
def decisionToSignalParams (decision : LlmDecision) (pair : Pair) (currentPrice : Decimal) :
    Except Error (Option SignalParams) :=
  let action := decision.action.getD "none"
  let confidence := decision.confidence.getD 0
  let slPips := decision.slPips.getD 100
  let tpPips := decision.tpPips.getD 200
  if action = "none" ∨ confidence < 6 / 10 then .ok none
  else if ¬PipOffsetsAreTradable slPips tpPips then .ok none
  else if ¬EntryPriceIsTradable currentPrice then .ok none
  else
    match directionOfAction action with
    | none => .ok none
    | some direction => do
      let sl := pipSize pair * (← toDecimal slPips)
      let tp := pipSize pair * (← toDecimal tpPips)
      return some { direction, entry := currentPrice, sl, tp, confidence }

/-- What the outside gives an event of a pair: the clock when the strategy looks whether the pair is due, the reply to
the question it would ask, and the clock after the reply. The question says the pair, the price, the most days a
position is held and the latest macro summary. -/
structure LlmCall where
  now : DateTime
  reply : Pair → Decimal → Nat → Option String → Except Error LlmDecision
  done : DateTime

/-- `SwingLLMv1`: when it last asked about each pair, and how often it failed since. -/
structure SwingLLMv1 where
  name : String
  pairs : List Pair
  holdingDaysMax : Nat
  lastCheck : Pair → Option DateTime
  lastAttempt : Pair → Option DateTime
  consecutiveFailures : Pair → Nat
  latestMacro : Option String

/-- What the strategy is given. -/
inductive SwingInput where
  | price (event : PriceEvent) (call : LlmCall)
  | macroUpdate (summary : String)

/-- One question about a pair: when the strategy found the pair due, when it had the outcome, and whether that was an
answer. -/
structure LlmAttempt where
  pair : Pair
  now : DateTime
  done : DateTime
  answered : Bool
  deriving DecidableEq, Repr

namespace SwingLLMv1

/-- The time between two checks of a pair. -/
def checkInterval : Int := hours 4

/-- The strategy before its first event. -/
def new (name : String) (pairs : List Pair) (holdingDaysMax : Nat) : SwingLLMv1 :=
  { name, pairs, holdingDaysMax, lastCheck := fun _ => none, lastAttempt := fun _ => none
    consecutiveFailures := fun _ => 0, latestMacro := none }

/-- The minutes to wait after so many failures in a row. -/
def backoffMins (failures : Nat) : Int := min (5 * 2 ^ (min failures 6 - 1)) 240

variable (s : SwingLLMv1)

/-- A check is due: after the interval, or after the backoff of the failures. -/
def shouldCheck (pair : Pair) (now : DateTime) : Bool :=
  if s.consecutiveFailures pair > 0 then
    match s.lastAttempt pair with
    | some last => now - last ≥ minutes (backoffMins (s.consecutiveFailures pair))
    | none => true
  else
    match s.lastCheck pair with
    | some last => now - last ≥ checkInterval
    | none => true

/-- One question to the language model. -/
def queryVegapunkAndLlm (pair : Pair) (currentPrice : Decimal) (call : LlmCall) :
    Except Error (Option SignalParams) := do
  let decision ← call.reply pair currentPrice s.holdingDaysMax s.latestMacro
  decisionToSignalParams toDecimal decision pair currentPrice

/-- What the strategy keeps of the outcome of a question. -/
def record (pair : Pair) (now : DateTime) (answered : Bool) : SwingLLMv1 :=
  let s := { s with lastAttempt := Function.update s.lastAttempt pair (some now) }
  if answered then
    { s with
      consecutiveFailures := Function.update s.consecutiveFailures pair 0
      lastCheck := Function.update s.lastCheck pair (some now) }
  else
    { s with
      consecutiveFailures :=
        Function.update s.consecutiveFailures pair (min (s.consecutiveFailures pair + 1) (2 ^ 32 - 1)) }

/-- The signal of an answer. -/
def signalOf (event : PriceEvent) (params : SignalParams) : PriceSignal where
  strategyName := s.name
  pair := event.pair
  direction := params.direction
  stopLossPct := params.sl / params.entry
  takeProfitPct := some (params.tp / params.entry)
  confidence := params.confidence
  timestamp := event.timestamp
  allocationPct := 5 / 10
  maxHoldUntil := none

/-- The signal that comes of the outcome of a question. -/
def answerWith (event : PriceEvent) (result : Except Error (Option SignalParams)) : Option PriceSignal :=
  match result with
  | .ok (some params) => some (s.signalOf event params)
  | .ok none => none
  | .error _ => none

/-- The question that an event leads to, if any, with the signal that comes of it. -/
def onPrice (event : PriceEvent) (call : LlmCall) : (Option LlmAttempt × Option PriceSignal) × SwingLLMv1 :=
  if event.pair ∉ s.pairs then ((none, none), s)
  else if !s.shouldCheck event.pair call.now then ((none, none), s)
  else
    let result := s.queryVegapunkAndLlm toDecimal event.pair event.candle.close call
    let attempt := { pair := event.pair, now := call.now, done := call.done, answered := result.isOk }
    ((some attempt, s.answerWith event result), s.record event.pair call.done result.isOk)

/-- The latest macro summary is kept. -/
def onMacroUpdate (summary : String) : SwingLLMv1 := { s with latestMacro := some summary }

/-- The strategy as the engine drives it; it has no warm-up of its own. -/
def strategy : Lib.Machine SwingLLMv1 SwingInput (Option LlmAttempt × Option PriceSignal) where
  step
    | .price event call, s => s.onPrice toDecimal event call
    | .macroUpdate summary, s => ((none, none), s.onMacroUpdate summary)
  warm _ s := s

/-! ## When a pair is due -/

/-- The questions about a pair in a list of answers of the strategy, the first one first. -/
def attemptsOn (pair : Pair) (outputs : List (Option LlmAttempt × Option PriceSignal)) : List LlmAttempt :=
  (outputs.filterMap Prod.fst).filter fun a => a.pair = pair

/-- How many questions at the end have had no answer. -/
def failuresAtEnd (attempts : List LlmAttempt) : Nat := (attempts.rtakeWhile fun a => !a.answered).length

/-- How long a pair rests after some questions about it. -/
def rest (attempts : List LlmAttempt) : Int :=
  if failuresAtEnd attempts = 0 then checkInterval else minutes (backoffMins (failuresAtEnd attempts))

/-- The pair has rested since the outcome of the last question about it. -/
def Due (attempts : List LlmAttempt) (now : DateTime) : Prop :=
  ∀ last ∈ attempts.getLast?, rest attempts ≤ now - last.done

/-- What the strategy asks in a run, and what comes of it. -/
structure Paced (s : SwingLLMv1) (inputs : List SwingInput) : Prop where
  asked : ∀ before event call, before ++ [.price event call] <+: inputs →
    (((strategy toDecimal).step (.price event call) ((strategy toDecimal).after s before)).1.1.isSome ↔
      event.pair ∈ s.pairs ∧ Due (attemptsOn event.pair ((strategy toDecimal).outputs s before)) call.now)
  resumed : ∀ before event call, before ++ [.price event call] <+: inputs → event.pair ∈ s.pairs →
    (∀ last ∈ (attemptsOn event.pair ((strategy toDecimal).outputs s before)).getLast?,
      last.done + (if last.answered then hours 4 else minutes 160) ≤ call.now) →
    ((strategy toDecimal).step (.price event call) ((strategy toDecimal).after s before)).1.1.isSome
  spaced : ∀ pair, (attemptsOn pair ((strategy toDecimal).outputs s inputs)).IsChain fun a b =>
    a.done + minutes 5 ≤ b.now ∧ (a.answered → a.done + hours 4 ≤ b.now)
  signals : ∀ o ∈ (strategy toDecimal).outputs s inputs, ∀ signal ∈ o.2, ∃ attempt, o.1 = some attempt ∧
    attempt.answered ∧ attempt.pair = signal.pair ∧ 6 / 10 ≤ signal.confidence

theorem backoffMins_bounds {failures : Nat} (h : failures ≠ 0) :
    5 ≤ backoffMins failures ∧ backoffMins failures ≤ 160 := by
  have hcases : min failures 6 = 1 ∨ min failures 6 = 2 ∨ min failures 6 = 3 ∨ min failures 6 = 4 ∨
      min failures 6 = 5 ∨ min failures 6 = 6 := by omega
  unfold backoffMins
  rcases hcases with h | h | h | h | h | h <;> rw [h] <;> decide

/-- Counting further than six failures makes no difference. -/
theorem backoffMins_saturated (failures : Nat) : backoffMins (min failures (2 ^ 32 - 1)) = backoffMins failures := by
  unfold backoffMins
  congr 3
  omega

theorem failuresAtEnd_concat (attempts : List LlmAttempt) (attempt : LlmAttempt) :
    failuresAtEnd (attempts ++ [attempt]) = if attempt.answered then 0 else failuresAtEnd attempts + 1 := by
  unfold failuresAtEnd
  rw [List.rtakeWhile_concat]
  cases attempt.answered <;> simp

/-! ## What the state holds -/

/-- The state keeps of each pair the last outcome, and the failures since the last answer. -/
structure Holds (pair : Pair) (attempts : List LlmAttempt) (s : SwingLLMv1) : Prop where
  failures : s.consecutiveFailures pair = min (failuresAtEnd attempts) (2 ^ 32 - 1)
  lastAttempt : s.lastAttempt pair = attempts.getLast?.map LlmAttempt.done
  lastCheck : failuresAtEnd attempts = 0 → s.lastCheck pair = attempts.getLast?.map LlmAttempt.done

section

variable {s : SwingLLMv1} {pair : Pair} {attempts : List LlmAttempt}

theorem Holds.shouldCheck_iff (h : Holds pair attempts s) (now : DateTime) :
    s.shouldCheck pair now = true ↔ Due attempts now := by
  unfold shouldCheck Due rest
  rw [h.failures, backoffMins_saturated]
  by_cases hnone : failuresAtEnd attempts = 0
  · rw [if_neg (by omega), h.lastCheck hnone, if_pos hnone]
    cases attempts.getLast? <;> simp
  · rw [if_pos (by omega), h.lastAttempt, if_neg hnone]
    cases attempts.getLast? <;> simp

theorem Holds.record (h : Holds pair attempts s) (now done : DateTime) (answered : Bool) :
    Holds pair (attempts ++ [⟨pair, now, done, answered⟩]) (s.record pair done answered) := by
  cases answered with
  | true =>
    refine ⟨?_, ?_, fun _ => ?_⟩
    · rw [failuresAtEnd_concat]
      exact Function.update_self ..
    · rw [List.getLast?_concat]
      exact Function.update_self ..
    · rw [List.getLast?_concat]
      exact Function.update_self ..
  | false =>
    refine ⟨?_, ?_, fun hzero => ?_⟩
    · rw [failuresAtEnd_concat, if_neg (by simp)]
      show Function.update s.consecutiveFailures pair _ pair = _
      rw [Function.update_self, h.failures]
      omega
    · rw [List.getLast?_concat]
      exact Function.update_self ..
    · rw [failuresAtEnd_concat, if_neg (by simp)] at hzero
      omega

theorem record_other {other : Pair} (hne : other ≠ pair) (now : DateTime) (answered : Bool) :
    (s.record pair now answered).consecutiveFailures other = s.consecutiveFailures other ∧
      (s.record pair now answered).lastAttempt other = s.lastAttempt other ∧
      (s.record pair now answered).lastCheck other = s.lastCheck other := by
  cases answered
  · exact ⟨Function.update_of_ne hne .., Function.update_of_ne hne .., rfl⟩
  · exact ⟨Function.update_of_ne hne .., Function.update_of_ne hne .., Function.update_of_ne hne ..⟩

/-- Questions about one pair do not matter to another. -/
theorem Holds.other {asked : Pair} (h : Holds pair attempts s) (hne : pair ≠ asked) (now : DateTime) (answered : Bool) :
    Holds pair attempts (s.record asked now answered) := by
  obtain ⟨hfailures, hattempt, hcheck⟩ := record_other (s := s) hne now answered
  exact ⟨hfailures.trans h.failures, hattempt.trans h.lastAttempt, fun hz => hcheck.trans (h.lastCheck hz)⟩

@[simp] theorem record_pairs (now : DateTime) (answered : Bool) : (s.record pair now answered).pairs = s.pairs := by
  cases answered <;> rfl

/-! ## One event -/

variable {toDecimal}

/-- A direction is answered only by a reply that is sure enough. -/
theorem confidence_of_decision {decision : LlmDecision} {pair : Pair} {price : Decimal} {params : SignalParams}
    (h : decisionToSignalParams toDecimal decision pair price = .ok (some params)) :
    6 / 10 ≤ params.confidence := by
  unfold decisionToSignalParams at h
  dsimp only at h
  split at h
  · cases h
  · rename_i hsure
    split at h
    · cases h
    · split at h
      · cases h
      · split at h
        · cases h
        · obtain ⟨sl, -, h⟩ := Lib.bind_eq_ok.mp h
          obtain ⟨tp, -, h⟩ := Lib.bind_eq_ok.mp h
          obtain rfl := Option.some.inj (Except.ok.inj h)
          exact not_lt.mp fun hlt => hsure (.inr hlt)

theorem confidence_of_query {pair : Pair} {price : Decimal} {call : LlmCall} {params : SignalParams}
    (h : s.queryVegapunkAndLlm toDecimal pair price call = .ok (some params)) : 6 / 10 ≤ params.confidence := by
  obtain ⟨decision, -, h⟩ := Lib.bind_eq_ok.mp h
  exact confidence_of_decision h

theorem answerWith_sound {event : PriceEvent} {call : LlmCall} {result : Except Error (Option SignalParams)}
    (hresult : s.queryVegapunkAndLlm toDecimal event.pair event.candle.close call = result) :
    ∀ signal ∈ s.answerWith event result,
      result.isOk = true ∧ signal.pair = event.pair ∧ 6 / 10 ≤ signal.confidence := by
  intro signal hsignal
  cases result with
  | error e => exact absurd hsignal (by simp [answerWith])
  | ok answer =>
    cases answer with
    | none => exact absurd hsignal (by simp [answerWith])
    | some params =>
      obtain rfl : s.signalOf event params = signal := by simpa [answerWith] using hsignal
      exact ⟨rfl, rfl, confidence_of_query hresult⟩

/-- An event is asked about when its pair is due, and leaves the outcome; else nothing happens. -/
theorem onPrice_cases (toDecimal : Rat → Except Error Decimal) (s : SwingLLMv1) (event : PriceEvent) (call : LlmCall) :
    (¬(event.pair ∈ s.pairs ∧ s.shouldCheck event.pair call.now = true) ∧
      s.onPrice toDecimal event call = ((none, none), s)) ∨
    (event.pair ∈ s.pairs ∧ s.shouldCheck event.pair call.now = true ∧
      ∃ answered signal, s.onPrice toDecimal event call =
        ((some ⟨event.pair, call.now, call.done, answered⟩, signal), s.record event.pair call.done answered) ∧
      ∀ sent ∈ signal, answered = true ∧ sent.pair = event.pair ∧ 6 / 10 ≤ sent.confidence) := by
  unfold onPrice
  by_cases hpair : event.pair ∈ s.pairs
  · rw [if_neg (not_not.mpr hpair)]
    by_cases hdue : s.shouldCheck event.pair call.now = true
    · right
      obtain ⟨result, hresult⟩ : ∃ result,
          s.queryVegapunkAndLlm toDecimal event.pair event.candle.close call = result := ⟨_, rfl⟩
      refine ⟨hpair, hdue, result.isOk, s.answerWith event result, ?_, answerWith_sound hresult⟩
      rw [hdue, hresult]
      rfl
    · left
      refine ⟨fun h => hdue h.2, ?_⟩
      rw [Bool.not_eq_true] at hdue
      rw [hdue]
      rfl
  · left
    exact ⟨fun h => hpair h.1, if_pos hpair⟩

theorem attemptsOn_concat (pair : Pair) (outputs : List (Option LlmAttempt × Option PriceSignal))
    (attempt : Option LlmAttempt) (signal : Option PriceSignal) :
    attemptsOn pair (outputs ++ [(attempt, signal)]) =
      attemptsOn pair outputs ++ (attempt.filter fun a => a.pair = pair).toList := by
  unfold attemptsOn
  rw [List.filterMap_append, List.filter_append]
  cases attempt with
  | none => simp
  | some a => by_cases h : a.pair = pair <;> simp [h, Option.filter]

/-! ## Runs -/

/-- The state after some inputs, by the questions asked in them. -/
structure Kept (s₀ : SwingLLMv1) (outputs : List (Option LlmAttempt × Option PriceSignal)) (s : SwingLLMv1) : Prop where
  pairs : s.pairs = s₀.pairs
  holds : ∀ pair, Holds pair (attemptsOn pair outputs) s

/-- A price event is asked about exactly when its pair is due by the questions before it. -/
theorem Kept.asked {s₀ : SwingLLMv1} {outputs : List (Option LlmAttempt × Option PriceSignal)} (h : Kept s₀ outputs s)
    (event : PriceEvent) (call : LlmCall) :
    (s.onPrice toDecimal event call).1.1.isSome ↔
      event.pair ∈ s₀.pairs ∧ Due (attemptsOn event.pair outputs) call.now := by
  rw [← h.pairs, ← (h.holds event.pair).shouldCheck_iff]
  rcases onPrice_cases toDecimal s event call with ⟨hnot, heq⟩ | ⟨hpair, hdue, answered, signal, heq, -⟩
  · rw [heq]
    exact iff_of_false Bool.false_ne_true hnot
  · rw [heq]
    exact iff_of_true rfl ⟨hpair, hdue⟩

theorem Kept.step {s₀ : SwingLLMv1} {outputs : List (Option LlmAttempt × Option PriceSignal)} (h : Kept s₀ outputs s)
    (input : SwingInput) :
    Kept s₀ (outputs ++ [((strategy toDecimal).step input s).1]) ((strategy toDecimal).step input s).2 := by
  cases input with
  | macroUpdate summary =>
    refine ⟨h.pairs, fun pair => ?_⟩
    rw [show ((strategy toDecimal).step (.macroUpdate summary) s).1 = (none, none) from rfl, attemptsOn_concat,
      Option.filter_none, Option.toList_none, List.append_nil]
    exact ⟨(h.holds pair).failures, (h.holds pair).lastAttempt, (h.holds pair).lastCheck⟩
  | price event call =>
    show Kept s₀ (outputs ++ [(s.onPrice toDecimal event call).1]) (s.onPrice toDecimal event call).2
    rcases onPrice_cases toDecimal s event call with
      ⟨-, heq⟩ | ⟨hpair, hdue, answered, signal, heq, -⟩ <;> rw [heq]
    · refine ⟨h.pairs, fun pair => ?_⟩
      rw [attemptsOn_concat, Option.filter_none, Option.toList_none, List.append_nil]
      exact h.holds pair
    · refine ⟨(record_pairs _ _).trans h.pairs, fun pair => ?_⟩
      rw [attemptsOn_concat]
      by_cases hne : pair = event.pair
      · rw [hne, Option.filter_some_pos (by simp)]
        exact (h.holds event.pair).record call.now call.done answered
      · rw [Option.filter_some_neg (by simpa using fun heq => hne heq.symm), Option.toList_none, List.append_nil]
        exact (h.holds pair).other hne call.done answered

theorem kept_new (name : String) (pairs : List Pair) (days : Nat) :
    Kept (new name pairs days) [] (new name pairs days) :=
  ⟨rfl, fun _ => ⟨rfl, rfl, fun _ => rfl⟩⟩

theorem kept_after (toDecimal : Rat → Except Error Decimal) (name : String) (pairs : List Pair) (days : Nat)
    (inputs : List SwingInput) :
    Kept (new name pairs days) ((strategy toDecimal).outputs (new name pairs days) inputs)
      ((strategy toDecimal).after (new name pairs days) inputs) := by
  induction inputs using List.reverseRecOn with
  | nil => exact kept_new name pairs days
  | append_singleton inputs input ih =>
    rw [Lib.Machine.outputs_append, Lib.Machine.after_concat]
    exact ih.step input

theorem rest_ge (attempts : List LlmAttempt) : minutes 5 ≤ rest attempts := by
  unfold rest
  by_cases h : failuresAtEnd attempts = 0
  · rw [if_pos h]
    decide
  · rw [if_neg h]
    have := (backoffMins_bounds h).1
    unfold minutes seconds
    omega

theorem rest_of_answered {attempts : List LlmAttempt} {last : LlmAttempt} (hlast : attempts.getLast? = some last)
    (h : last.answered = true) : rest attempts = hours 4 := by
  obtain ⟨front, rfl⟩ := List.getLast?_eq_some_iff.mp hlast
  rw [rest, failuresAtEnd_concat, if_pos h, if_pos rfl]
  rfl

/-- The cap of the delay is out of its reach. -/
theorem rest_of_failed {attempts : List LlmAttempt} {last : LlmAttempt} (hlast : attempts.getLast? = some last)
    (h : last.answered = false) : rest attempts ≤ minutes 160 := by
  obtain ⟨front, rfl⟩ := List.getLast?_eq_some_iff.mp hlast
  have hfailed : failuresAtEnd (front ++ [last]) ≠ 0 := by
    rw [failuresAtEnd_concat, h, if_neg Bool.false_ne_true]
    omega
  rw [rest, if_neg hfailed]
  have := (backoffMins_bounds hfailed).2
  unfold minutes seconds
  omega

/-- After so much time a pair is due in any case. -/
theorem due_of_rested {attempts : List LlmAttempt} {now : DateTime}
    (h : ∀ last ∈ attempts.getLast?, last.done + (if last.answered then hours 4 else minutes 160) ≤ now) :
    Due attempts now := by
  intro last hlast
  have hrested := h last hlast
  cases hanswered : last.answered with
  | true =>
    rw [hanswered, if_pos rfl] at hrested
    rw [rest_of_answered hlast hanswered]
    exact le_sub_iff_add_le'.mpr hrested
  | false =>
    rw [hanswered, if_neg Bool.false_ne_true] at hrested
    exact (rest_of_failed hlast hanswered).trans (le_sub_iff_add_le'.mpr hrested)

/-- Two questions in a row about a pair, the second of them asked when the pair was due. -/
theorem Due.spaced {attempts : List LlmAttempt} {now : DateTime} (h : Due attempts now) :
    ∀ last ∈ attempts.getLast?, last.done + minutes 5 ≤ now ∧ (last.answered → last.done + hours 4 ≤ now) := by
  intro last hlast
  have hrest := h last hlast
  refine ⟨le_sub_iff_add_le'.mp ((rest_ge attempts).trans hrest), fun hanswered => ?_⟩
  rw [rest_of_answered hlast hanswered] at hrest
  exact le_sub_iff_add_le'.mp hrest

end

/-- In every sequence of price events and macro updates, whatever the clock and the replies, an event is asked about
exactly when its pair is one of the strategy and due by the questions on that pair alone. So two questions on a pair
are five minutes apart, and four hours after an answer, the pair never rests longer than 160 minutes after a failure,
and a signal comes only of an answer that is sure enough. -/
theorem paced (toDecimal : Rat → Except Error Decimal) (name : String) (pairs : List Pair) (days : Nat)
    (inputs : List SwingInput) : Paced toDecimal (new name pairs days) inputs := by
  refine ⟨fun before event call _ => (kept_after toDecimal name pairs days before).asked event call,
    fun before event call _ hpair hrested =>
      ((kept_after toDecimal name pairs days before).asked event call).mpr ⟨hpair, due_of_rested hrested⟩,
      fun pair => ?_, ?_⟩
  · induction inputs using List.reverseRecOn with
    | nil => exact List.IsChain.nil
    | append_singleton inputs input ih =>
      rw [Lib.Machine.outputs_append]
      cases input with
      | macroUpdate summary =>
        rw [show Lib.Machine.outputs (strategy toDecimal) _ [.macroUpdate summary] = [(none, none)] from rfl,
          attemptsOn_concat]
        simpa using ih
      | price event call =>
        have hkept := kept_after toDecimal name pairs days inputs
        generalize (strategy toDecimal).after (new name pairs days) inputs = s at hkept
        rw [show Lib.Machine.outputs (strategy toDecimal) s [.price event call] =
          [(s.onPrice toDecimal event call).1] from rfl]
        rcases onPrice_cases toDecimal s event call with
          ⟨-, heq⟩ | ⟨hpair, hdue, answered, signal, heq, -⟩ <;> rw [heq, attemptsOn_concat]
        · simpa using ih
        · by_cases hne : pair = event.pair
          · have hdue' := ((hkept.holds event.pair).shouldCheck_iff call.now).mp hdue
            rw [Option.filter_some_pos (by simpa using hne.symm), hne, Option.toList_some, List.isChain_append]
            refine ⟨hne ▸ ih, List.isChain_singleton _, fun last hlast b hb => ?_⟩
            obtain rfl : _ = b := by simpa using hb
            exact hdue'.spaced last hlast
          · rw [Option.filter_some_neg (by simpa using fun heq => hne heq.symm)]
            simpa using ih
  · rw [Lib.Machine.forall_outputs_iff]
    intro before input _
    cases input with
    | macroUpdate summary => exact fun signal hsignal => absurd hsignal (by simp [strategy])
    | price event call =>
      generalize (strategy toDecimal).after (new name pairs days) before = s
      intro signal hsignal
      change signal ∈ (s.onPrice toDecimal event call).1.2 at hsignal
      show ∃ attempt, (s.onPrice toDecimal event call).1.1 = some attempt ∧ _
      rcases onPrice_cases toDecimal s event call with
        ⟨-, heq⟩ | ⟨hpair, hdue, answered, signal', heq, hsound⟩ <;> rw [heq] at hsignal ⊢
      · exact absurd hsignal (by simp)
      · obtain ⟨hanswered, hpair', hconfidence⟩ := hsound signal hsignal
        exact ⟨_, rfl, hanswered, hpair'.symm, hconfidence⟩

end SwingLLMv1

end AutoTrader
