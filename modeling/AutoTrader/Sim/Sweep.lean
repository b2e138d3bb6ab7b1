import Mathlib.Algebra.Ring.Nat
import Mathlib.Data.List.Basic
import Mathlib.Tactic.Basic

/-!
# The sweep: workers, channel and consumer

`run_sweep` runs one combination for every position of a list of indices. Workers claim positions from a
shared queue, run them and send the records over a bounded channel; one consumer drains the channel and
passes the records to `on_result`. A fatal error, a panic or an error of `on_result` cancels the queue.

An action is one step of a worker or of the consumer: what lies between two operations on shared state. The
outcome of a run and the answer of `on_result` are given with the action. A state also has logs of what was
claimed, delivered, discarded and failed, which no step reads.
-/

namespace AutoTrader.Sim

variable {R E : Type}

/-- The queue of the indices that are left. -/
structure WorkQueue where
  next : Nat
  cancelled : Bool
  deriving DecidableEq, Repr

/-- The next index, unless the sweep was cancelled. -/
def WorkQueue.claimNextUnlessCancelled (q : WorkQueue) (len : Nat) : Option Nat × WorkQueue :=
  if q.cancelled ∨ len ≤ q.next then (none, q) else (some q.next, { q with next := q.next + 1 })

/-- How a run of a worker ends. -/
inductive RunOutcome (R E : Type) where
  | record (r : R)
  | fatal (e : E)
  | panic (message : String)

/-- Where a worker is. -/
inductive Worker (R E : Type) where
  /-- At the head of the loop. -/
  | claiming
  | running (i : Nat)
  | sending (i : Nat) (r : R)
  /-- Has a fatal error to store. -/
  | fatal (e : E)
  /-- Has a panic to store, at a combination index. -/
  | panicked (idx : Nat) (message : String)
  | cancelling
  /-- Its sender is dropped. -/
  | stopped

/-- The worker has left its loop. -/
def Worker.isStopped : Worker R E → Bool
  | stopped => true
  | _ => false

/-- The errors of a sweep. -/
inductive SweepError (E : Type) where
  | given (e : E)
  | batchFailed (text : String)

/-- Where the consumer is. -/
inductive Consumer (R E : Type) where
  /-- At the head of the draining loop. -/
  | receiving
  | handling (i : Nat) (r : R)
  | cancelling
  | drained
  | readingPanic
  /-- Its receiver is dropped. -/
  | returned (result : Except (SweepError E) Unit)

/-- The state of a sweep. -/
structure Sweep (R E : Type) where
  queue : WorkQueue
  channel : List (Nat × R)
  workers : List (Worker R E)
  consumer : Consumer R E
  received : Nat
  finalErr : Option E
  firstPanic : Option (Nat × String)
  firstFatal : Option E
  /-- The positions in the order they were claimed in. -/
  claimed : List Nat
  /-- The calls of `on_result` with their answers. -/
  calls : List (Nat × R × Except E Unit)
  /-- The positions whose records were received and not handled. -/
  discarded : List Nat
  /-- The positions whose runs failed. -/
  failed : List Nat

namespace Sweep

/-- The channel holds one record for each worker. -/
def channelCapacity (jobs : Nat) : Nat := jobs

/-- The sweep at its start; without indices it is at its end. -/
def start (indices : List Nat) (jobs : Nat) : Sweep R E where
  queue := { next := 0, cancelled := false }
  channel := []
  workers := if indices = [] then [] else List.replicate (max jobs 1) .claiming
  consumer := if indices = [] then .returned (.ok ()) else .receiving
  received := 0
  finalErr := none
  firstPanic := none
  firstFatal := none
  claimed := []
  calls := []
  discarded := []
  failed := []

variable (indices : List Nat) (jobs : Nat) (s : Sweep R E)

/-- A worker moves on. -/
def setWorker (k : Nat) (w : Worker R E) : Sweep R E := { s with workers := s.workers.set k w }

/-- The receiver is dropped. -/
def closed : Bool :=
  match s.consumer with
  | .returned _ => true
  | _ => false

/-- One step of worker `k`; a send waits while the channel is full. -/
def stepWorker (k : Nat) (outcome : RunOutcome R E) : Option (Sweep R E) :=
  match s.workers[k]? with
  | none => none
  | some .claiming =>
    match s.queue.claimNextUnlessCancelled indices.length with
    | (none, queue) => some { s.setWorker k .stopped with queue }
    | (some i, queue) => some { s.setWorker k (.running i) with queue, claimed := s.claimed ++ [i] }
  | some (.running i) =>
    match outcome with
    | .record r => some (s.setWorker k (.sending i r))
    | .fatal e => some { s.setWorker k (.fatal e) with failed := i :: s.failed }
    | .panic message => some { s.setWorker k (.panicked (indices.getD i 0) message) with failed := i :: s.failed }
  | some (.sending i r) =>
    if s.closed then some (s.setWorker k .stopped)
    else if s.channel.length < channelCapacity (max jobs 1) then
      some { s.setWorker k .claiming with channel := s.channel ++ [(i, r)] }
    else none
  | some (.fatal e) => some { s.setWorker k .cancelling with firstFatal := s.firstFatal.or (some e) }
  | some (.panicked idx message) =>
    some { s.setWorker k .cancelling with firstPanic := s.firstPanic.or (some (idx, message)) }
  | some .cancelling => some { s.setWorker k .stopped with queue := { s.queue with cancelled := true } }
  | some .stopped => none

/-- The error of a panic. -/
def sweepPanicResult : Option (Nat × String) → Except (SweepError E) Unit
  | none => .ok ()
  | some (idx, message) =>
    .error (.batchFailed s!"failed to run sweep worker at combination index {idx}: {message}")

/-- One step of the consumer; a receive waits while the channel is empty and a sender is left. -/
def stepConsumer (answer : Except E Unit) : Option (Sweep R E) :=
  match s.consumer with
  | .receiving =>
    if s.received < indices.length then
      match s.channel with
      | (i, r) :: channel =>
        if s.finalErr.isSome then
          some { s with channel, received := s.received + 1, discarded := i :: s.discarded }
        else some { s with channel, received := s.received + 1, consumer := .handling i r }
      | [] => if s.workers.all Worker.isStopped then some { s with consumer := .drained } else none
    else some { s with consumer := .drained }
  | .handling i r =>
    match answer with
    | .ok () => some { s with consumer := .receiving, calls := s.calls ++ [(i, r, .ok ())] }
    | .error e =>
      some { s with consumer := .cancelling, finalErr := some e, calls := s.calls ++ [(i, r, .error e)] }
  | .cancelling => some { s with consumer := .receiving, queue := { s.queue with cancelled := true } }
  | .drained =>
    match s.finalErr, s.firstFatal with
    | some e, _ => some { s with consumer := .returned (.error (.given e)) }
    | none, some e => some { s with consumer := .returned (.error (.given e)), firstFatal := none }
    | none, none => some { s with consumer := .readingPanic }
  | .readingPanic => some { s with consumer := .returned (sweepPanicResult s.firstPanic), firstPanic := none }
  | .returned _ => none

/-- The steps of a sweep. -/
inductive Action (R E : Type) where
  | worker (k : Nat) (outcome : RunOutcome R E)
  | consumer (answer : Except E Unit)

/-- One step. -/
def step : Action R E → Option (Sweep R E)
  | .worker k outcome => s.stepWorker indices jobs k outcome
  | .consumer answer => s.stepConsumer indices answer

/-- The states of every interleaving, with any outcome of a run and any answer of `on_result`. -/
inductive Reachable : Sweep R E → Prop where
  | start : Reachable (start indices jobs)
  | step {s s' : Sweep R E} (a : Action R E) (hs : Reachable s) (h : s.step indices jobs a = some s') : Reachable s'

/-- The consumer has returned and every worker has stopped. -/
def Finished : Prop := s.closed ∧ s.workers.all Worker.isStopped

/-- What `run_sweep` returns. -/
def Returns (result : Except (SweepError E) Unit) : Prop := s.consumer = .returned result

/-! ## What a step can do -/

variable {indices : List Nat} {jobs : Nat} {s s' : Sweep R E}

/-- What one step of a worker changes, by the state it is in before. -/
inductive WorkerStep (indices : List Nat) (s : Sweep R E) (k : Nat) : Worker R E → Sweep R E → Prop where
  | noClaim (h : s.queue.cancelled ∨ indices.length ≤ s.queue.next) :
    WorkerStep indices s k .claiming (s.setWorker k .stopped)
  | claim (hc : s.queue.cancelled = false) (hn : s.queue.next < indices.length) :
    WorkerStep indices s k .claiming { s.setWorker k (.running s.queue.next) with
      queue := { s.queue with next := s.queue.next + 1 }, claimed := s.claimed ++ [s.queue.next] }
  | record (i : Nat) (r : R) : WorkerStep indices s k (.running i) (s.setWorker k (.sending i r))
  | fails (i : Nat) (w : Worker R E) (hw : (∃ e, w = .fatal e) ∨ ∃ idx message, w = .panicked idx message) :
    WorkerStep indices s k (.running i) { s.setWorker k w with failed := i :: s.failed }
  | sendClosed (i : Nat) (r : R) (hc : s.closed = true) : WorkerStep indices s k (.sending i r) (s.setWorker k .stopped)
  | send (i : Nat) (r : R) (hc : s.closed = false) :
    WorkerStep indices s k (.sending i r) { s.setWorker k .claiming with channel := s.channel ++ [(i, r)] }
  | storeFatal (e : E) :
    WorkerStep indices s k (.fatal e) { s.setWorker k .cancelling with firstFatal := s.firstFatal.or (some e) }
  | storePanic (idx : Nat) (message : String) :
    WorkerStep indices s k (.panicked idx message)
      { s.setWorker k .cancelling with firstPanic := s.firstPanic.or (some (idx, message)) }
  | cancel : WorkerStep indices s k .cancelling
    { s.setWorker k .stopped with queue := { s.queue with cancelled := true } }

theorem stepWorker_cases {k : Nat} {outcome : RunOutcome R E} (h : s.stepWorker indices jobs k outcome = some s') :
    ∃ w, s.workers[k]? = some w ∧ WorkerStep indices s k w s' := by
  unfold stepWorker at h
  rcases hw : s.workers[k]? with _ | w
  · rw [hw] at h
    cases h
  rw [hw] at h
  refine ⟨w, rfl, ?_⟩
  cases w with
  | claiming =>
    dsimp only at h
    unfold WorkQueue.claimNextUnlessCancelled at h
    split at h
    · rename_i hq
      split at hq
      · rename_i hstop
        obtain rfl := Option.some.inj h
        obtain ⟨-, rfl⟩ := Prod.mk.inj hq
        exact .noClaim hstop
      · cases (Prod.mk.inj hq).1
    · rename_i hq
      split at hq
      · cases (Prod.mk.inj hq).1
      · rename_i hgo
        obtain rfl := Option.some.inj h
        obtain ⟨hi, rfl⟩ := Prod.mk.inj hq
        obtain rfl := Option.some.inj hi
        simp only [not_or, Bool.not_eq_true] at hgo
        exact .claim hgo.1 (by omega)
  | running i =>
    cases outcome with
    | record r => obtain rfl := Option.some.inj h; exact .record i r
    | fatal e => obtain rfl := Option.some.inj h; exact .fails i _ (.inl ⟨e, rfl⟩)
    | panic message => obtain rfl := Option.some.inj h; exact .fails i _ (.inr ⟨_, _, rfl⟩)
  | sending i r =>
    dsimp only at h
    split at h
    · rename_i hc
      obtain rfl := Option.some.inj h
      exact .sendClosed i r hc
    · rename_i hc
      split at h
      · obtain rfl := Option.some.inj h
        exact .send i r (by simpa using hc)
      · cases h
  | fatal e => obtain rfl := Option.some.inj h; exact .storeFatal e
  | panicked idx message => obtain rfl := Option.some.inj h; exact .storePanic idx message
  | cancelling => obtain rfl := Option.some.inj h; exact .cancel
  | stopped => cases h

/-- What one step of the consumer changes, by the state it is in before. -/
inductive ConsumerStep (indices : List Nat) (s : Sweep R E) : Consumer R E → Sweep R E → Prop where
  | discard (i : Nat) (r : R) (channel : List (Nat × R)) (hc : s.channel = (i, r) :: channel)
      (he : s.finalErr.isSome = true) :
    ConsumerStep indices s .receiving
      { s with channel, received := s.received + 1, consumer := .receiving, discarded := i :: s.discarded }
  | receive (i : Nat) (r : R) (channel : List (Nat × R)) (hc : s.channel = (i, r) :: channel) (he : s.finalErr = none) :
    ConsumerStep indices s .receiving { s with channel, received := s.received + 1, consumer := .handling i r }
  | drain (h : indices.length ≤ s.received ∨ s.channel = [] ∧ ∀ w ∈ s.workers, w.isStopped = true) :
    ConsumerStep indices s .receiving { s with consumer := .drained }
  | handled (i : Nat) (r : R) : ConsumerStep indices s (.handling i r)
    { s with consumer := .receiving, calls := s.calls ++ [(i, r, .ok ())] }
  | refused (i : Nat) (r : R) (e : E) : ConsumerStep indices s (.handling i r)
    { s with consumer := .cancelling, finalErr := some e, calls := s.calls ++ [(i, r, .error e)] }
  | cancel : ConsumerStep indices s .cancelling
    { s with consumer := .receiving, queue := { s.queue with cancelled := true } }
  | finalErr (e : E) (he : s.finalErr = some e) : ConsumerStep indices s .drained
    { s with consumer := .returned (.error (.given e)) }
  | fatal (e : E) (hn : s.finalErr = none) (he : s.firstFatal = some e) : ConsumerStep indices s .drained
    { s with consumer := .returned (.error (.given e)), firstFatal := none }
  | noFatal (hn : s.finalErr = none) (he : s.firstFatal = none) : ConsumerStep indices s .drained
    { s with consumer := .readingPanic }
  | panic : ConsumerStep indices s .readingPanic
    { s with consumer := .returned (sweepPanicResult s.firstPanic), firstPanic := none }

theorem stepConsumer_cases {answer : Except E Unit} (h : s.stepConsumer indices answer = some s') :
    ConsumerStep indices s s.consumer s' := by
  unfold stepConsumer at h
  rcases hc : s.consumer with _ | ⟨i, r⟩ | _ | _ | _ | result
  · rw [hc] at h
    dsimp only at h
    split at h
    · split at h
      · rename_i i r channel hchannel
        split at h
        · rename_i he
          obtain rfl := Option.some.inj h
          exact .discard i r channel hchannel he
        · rename_i he
          obtain rfl := Option.some.inj h
          exact .receive i r channel hchannel (by simpa using he)
      · rename_i hchannel
        split at h
        · rename_i hstopped
          obtain rfl := Option.some.inj h
          exact .drain (.inr ⟨hchannel, List.all_eq_true.mp hstopped⟩)
        · cases h
    · rename_i hlt
      obtain rfl := Option.some.inj h
      exact .drain (.inl (by omega))
  · rw [hc] at h
    cases answer with
    | ok => obtain rfl := Option.some.inj h; exact .handled i r
    | error e => obtain rfl := Option.some.inj h; exact .refused i r e
  · rw [hc] at h
    obtain rfl := Option.some.inj h
    exact .cancel
  · rw [hc] at h
    dsimp only at h
    split at h
    · rename_i e he
      obtain rfl := Option.some.inj h
      exact .finalErr e he
    · rename_i e hn he
      obtain rfl := Option.some.inj h
      exact .fatal e hn he
    · rename_i hn he
      obtain rfl := Option.some.inj h
      exact .noFatal hn he
  · rw [hc] at h
    obtain rfl := Option.some.inj h
    exact .panic
  · rw [hc] at h
    cases h

end Sweep

end AutoTrader.Sim
