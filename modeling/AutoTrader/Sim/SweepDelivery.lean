import AutoTrader.Sim.SweepRuns
import Mathlib.Logic.Relation

/-!
# What a sweep delivers

No interleaving of the workers and the consumer is stuck (`can_step`), each comes to an end (`finishes`), and
what the sweep returns fits the calls of `on_result` (`sweep_delivers`).
-/

namespace AutoTrader.Sim

variable {R E : Type}

/-- At least so many steps a worker has left. -/
def Worker.work : Worker R E → Nat
  | claiming => 1
  | running _ => 11
  | sending _ _ => 8
  | fatal _ => 4
  | panicked _ _ => 4
  | cancelling => 2
  | stopped => 0

/-- A measure of what the consumer has left to do. -/
def Consumer.work : Consumer R E → Nat
  | receiving => 4
  | handling _ _ => 6
  | cancelling => 5
  | drained => 3
  | readingPanic => 2
  | returned _ => 0

namespace Sweep

variable {indices : List Nat} {jobs : Nat} {s s' : Sweep R E}

/-! ## Progress -/

/-- The consumer waits only on an empty channel with a sender left. -/
theorem stepConsumer_isSome (hc : s.closed = false) (h : s.channel ≠ [] ∨ s.workers.all Worker.isStopped = true) :
    (s.stepConsumer indices (.ok ())).isSome = true := by
  unfold stepConsumer
  rcases hcon : s.consumer with _ | ⟨i, r⟩ | _ | _ | _ | result
  · dsimp only
    split
    · rcases hchannel : s.channel with _ | ⟨⟨i, r⟩, channel⟩
      · have hall := h.resolve_left fun hne => hne hchannel
        simp [hall]
      · dsimp only
        split <;> rfl
    · rfl
  · rfl
  · rfl
  · dsimp only
    split <;> rfl
  · rfl
  · unfold closed at hc
    rw [hcon] at hc
    cases hc

/-- A worker waits only to send into a full channel. -/
theorem stepWorker_isSome {k : Nat} {w : Worker R E} (hw : s.workers[k]? = some w) (hst : w.isStopped = false)
    (hfull : s.closed = true ∨ s.channel.length < channelCapacity (max jobs 1)) :
    (s.stepWorker indices jobs k (.panic "")).isSome = true := by
  unfold stepWorker
  rw [hw]
  cases w with
  | claiming =>
    dsimp only
    split <;> rfl
  | running i => rfl
  | sending i r =>
    dsimp only
    split
    · rfl
    · rename_i hc
      have hlt := hfull.resolve_left hc
      rw [if_pos hlt]
      rfl
  | fatal e => rfl
  | panicked idx message => rfl
  | cancelling => rfl
  | stopped => cases hst

/-- Until all have finished, somebody can step. -/
theorem can_step (indices : List Nat) (jobs : Nat) (s : Sweep R E) (h : ¬ s.Finished) :
    ∃ a, (s.step indices jobs a).isSome = true := by
  by_cases hall : s.workers.all Worker.isStopped = true
  · have hc : s.closed = false := by
      by_contra hc
      exact h ⟨by simpa using hc, hall⟩
    exact ⟨.consumer (.ok ()), stepConsumer_isSome hc (.inr hall)⟩
  · by_cases hfull : s.closed = true ∨ s.channel.length < channelCapacity (max jobs 1)
    · obtain ⟨w, hw, hst⟩ : ∃ w ∈ s.workers, w.isStopped = false := by
        simpa [List.all_eq_true] using hall
      obtain ⟨k, hk⟩ := List.mem_iff_getElem?.mp hw
      exact ⟨.worker k (.panic ""), stepWorker_isSome hk hst hfull⟩
    · have hlen : channelCapacity (max jobs 1) ≤ s.channel.length := by
        by_contra hlt
        exact hfull (.inr (by omega))
      have hne : s.channel ≠ [] := by
        rintro hnil
        rw [hnil] at hlen
        have : 1 ≤ max jobs 1 := Nat.le_max_right _ _
        unfold channelCapacity at hlen
        simp only [List.length_nil] at hlen
        omega
      have hc : s.closed = false := by
        by_contra hc
        exact hfull (.inl (by simpa using hc))
      exact ⟨.consumer (.ok ()), stepConsumer_isSome hc (.inl hne)⟩

/-- What is left to do: every step makes it less. -/
def work (indices : List Nat) (s : Sweep R E) : Nat :=
  12 * (indices.length - s.queue.next) + (s.workers.map Worker.work).sum + 3 * s.channel.length + s.consumer.work

theorem work_workerStep {k : Nat} {w : Worker R E} (hw : s.workers[k]? = some w) (hs : WorkerStep indices s k w s') :
    s'.work indices < s.work indices := by
  have hsum := sum_map_set (Worker.work : Worker R E → Nat) hw
  unfold work
  cases hs with
  | noClaim =>
    have := hsum .stopped
    simp only [setWorker, Worker.work] at this ⊢
    omega
  | claim hc hn =>
    have := hsum (.running s.queue.next)
    simp only [setWorker, Worker.work] at this ⊢
    omega
  | record i r =>
    have := hsum (.sending i r)
    simp only [setWorker, Worker.work] at this ⊢
    omega
  | fails i w' hw' =>
    have := hsum w'
    have hwork : w'.work = 4 := by rcases hw' with ⟨e, rfl⟩ | ⟨idx, message, rfl⟩ <;> rfl
    rw [hwork] at this
    simp only [setWorker, Worker.work] at this ⊢
    omega
  | sendClosed i r =>
    have := hsum .stopped
    simp only [setWorker, Worker.work] at this ⊢
    omega
  | send i r =>
    have := hsum .claiming
    simp only [setWorker, Worker.work, List.length_append, List.length_singleton] at this ⊢
    omega
  | storeFatal e =>
    have := hsum .cancelling
    simp only [setWorker, Worker.work] at this ⊢
    omega
  | storePanic idx message =>
    have := hsum .cancelling
    simp only [setWorker, Worker.work] at this ⊢
    omega
  | cancel =>
    have := hsum .stopped
    simp only [setWorker, Worker.work] at this ⊢
    omega

theorem work_consumerStep {c : Consumer R E} (hc : s.consumer = c) (hs : ConsumerStep indices s c s') :
    s'.work indices < s.work indices := by
  unfold work
  rw [hc]
  cases hs with
  | discard i r channel hchannel =>
    rw [hchannel]
    simp only [Consumer.work, List.length_cons]
    omega
  | receive i r channel hchannel =>
    rw [hchannel]
    simp only [Consumer.work, List.length_cons]
    omega
  | _ =>
    simp only [Consumer.work]
    omega

theorem work_step {a : Action R E} (hs : s.step indices jobs a = some s') : s'.work indices < s.work indices := by
  cases a with
  | worker k outcome =>
    obtain ⟨w, hw, hcase⟩ := stepWorker_cases hs
    exact work_workerStep hw hcase
  | consumer answer => exact work_consumerStep rfl (stepConsumer_cases hs)

/-- Every run goes on to a finished state, in as many steps as there is work left. -/
theorem finishes (indices : List Nat) (jobs : Nat) (s : Sweep R E) :
    ∃ s', Relation.ReflTransGen (fun s s' => ∃ a, s.step indices jobs a = some s') s s' ∧ s'.Finished := by
  induction hn : s.work indices using Nat.strong_induction_on generalizing s with
  | _ n ih =>
    by_cases hf : s.Finished
    · exact ⟨s, .refl, hf⟩
    · obtain ⟨a, ha⟩ := can_step indices jobs s hf
      obtain ⟨s₁, hs⟩ := Option.isSome_iff_exists.mp ha
      obtain ⟨s', hreach, hdone⟩ := ih _ (hn ▸ work_step hs) s₁ rfl
      exact ⟨s', .head ⟨a, hs⟩ hreach, hdone⟩

/-! ## Delivery -/

/-- When the consumer has returned without an error, every position has had its call. -/
theorem Inv.delivered (h : Inv indices s) (hr : s.Returns (.ok ())) :
    (s.calls.map Prod.fst).Perm (List.range indices.length) := by
  have hset : s.consumer.Settled := by
    rw [show s.consumer = _ from hr]
    trivial
  have hholds := Consumer.Settled.holds hset
  obtain ⟨hnone, hfailed⟩ := (h.returned _ hr).2 rfl
  have hkept := h.kept hnone
  have hle := h.next_le
  -- nothing is left to claim, in the channel or with a worker
  have hdone : s.queue.next = indices.length ∧ s.channel = [] ∧ ∀ w ∈ s.workers, w.holds = [] := by
    rcases h.settled hset with ⟨hchannel, hall⟩ | hr
    · refine ⟨?_, hchannel, fun w hw => ?_⟩
      · by_cases hi : indices = []
        · rw [hi] at hle ⊢
          exact Nat.le_zero.mp hle
        · obtain ⟨w, hw⟩ := List.exists_mem_of_ne_nil _ (h.workers_ne hi)
          rcases h.stopped w hw (hall w hw) with hcan | hnext
          · rcases h.cancelled hcan with hf | hsome
            · exact (hf hfailed).elim
            · rw [hnone] at hsome
              cases hsome
          · omega
      · have hst := hall w hw
        cases w with
        | stopped => rfl
        | _ => cases hst
    · obtain ⟨hnext, hchannel, -, hw⟩ := h.all_received hr hholds
      exact ⟨hnext, hchannel, hw⟩
  obtain ⟨hnext, hchannel, hworkers⟩ := hdone
  refine List.perm_iff_count.mpr fun i => ?_
  have hplace := h.place i
  have hzero : (s.workers.map fun w => w.holds.count i).sum = 0 := by
    refine List.sum_eq_zero fun n hn => ?_
    obtain ⟨w, hw, rfl⟩ := List.mem_map.mp hn
    rw [hworkers w hw, List.count_nil]
  rw [places, hzero, hchannel, hholds, hkept, hfailed, hnext] at hplace
  simp only [List.map_nil, List.count_nil] at hplace
  rw [List.count_range]
  omega

theorem Inv.failed_error (h : Inv indices s) (hf : s.failed ≠ []) {result : Except (SweepError E) Unit}
    (hr : s.Returns result) : ∃ e, result = .error e := by
  rcases result with e | ⟨⟩
  · exact ⟨e, rfl⟩
  · exact (hf ((h.returned _ hr).2 rfl).2).elim

/-- An error of `on_result` is the last answer, and the final error. -/
theorem Inv.refused (h : Inv indices s) {i : Nat} {r : R} {e : E} (hmem : (i, r, .error e) ∈ s.calls) :
    (∃ earlier, s.calls = earlier ++ [(i, r, .error e)]) ∧ s.finalErr = some e := by
  have hanswers := h.answers
  rcases hfinal : s.finalErr with _ | e'
  · rw [hfinal] at hanswers
    cases hanswers _ hmem
  · rw [hfinal] at hanswers
    obtain ⟨earlier, i', r', hcalls, hgood⟩ := hanswers
    rw [hcalls] at hmem
    rcases List.mem_append.mp hmem with hin | hlast
    · cases hgood _ hin
    · simp only [List.mem_singleton, Prod.mk.injEq, Except.error.injEq] at hlast
      obtain ⟨rfl, rfl, rfl⟩ := hlast
      exact ⟨⟨earlier, hcalls⟩, rfl⟩

/-- In every interleaving: a sweep that returns without an error has called `on_result` exactly once for each
position; an error of `on_result` ends the calls and is what the sweep returns; after a failed run the sweep
returns an error; no position is claimed twice; and until all have finished, somebody can step. -/
theorem sweep_delivers (h : Reachable indices jobs s) :
    (s.Returns (.ok ()) → (s.calls.map Prod.fst).Perm (List.range indices.length)) ∧
      (∀ i r e, (i, r, .error e) ∈ s.calls → (∃ earlier, s.calls = earlier ++ [(i, r, .error e)]) ∧
        ∀ result, s.Returns result → result = .error (.given e)) ∧
      (s.failed ≠ [] → ∀ result, s.Returns result → ∃ e, result = .error e) ∧
      s.claimed.Nodup ∧ (¬ s.Finished → ∃ a, (s.step indices jobs a).isSome = true) := by
  have hinv := h.inv
  refine ⟨hinv.delivered, fun i r e hmem => ?_, fun hf result => hinv.failed_error hf, ?_, can_step indices jobs s⟩
  · obtain ⟨hlast, hfinal⟩ := hinv.refused hmem
    exact ⟨hlast, fun result hr => (hinv.returned result hr).1 e hfinal⟩
  · rw [hinv.claimed_eq]
    exact List.nodup_range

/-! ## A sweep over two indices -/

/-- The actions one after the other; one that is not possible is left out. -/
def play (indices : List Nat) (jobs : Nat) (actions : List (Action R E)) : Sweep R E :=
  actions.foldl (fun s a => (s.step indices jobs a).getD s) (start indices jobs)

theorem Reachable.getD (h : Reachable indices jobs s) (a : Action R E) :
    Reachable indices jobs ((s.step indices jobs a).getD s) := by
  rcases hs : s.step indices jobs a with _ | s'
  · exact h
  · exact .step a h hs

theorem play_reachable (indices : List Nat) (jobs : Nat) (actions : List (Action R E)) :
    Reachable indices jobs (play indices jobs actions) := by
  induction actions using List.reverseRecOn with
  | nil => exact .start
  | append_singleton actions a ih =>
    unfold play at ih ⊢
    rw [List.foldl_append, List.foldl_cons, List.foldl_nil]
    exact ih.getD a

/-- Two workers claim a position each and run it, and the consumer handles both records. -/
def sampleActions : List (Action Nat String) :=
  let worker (k : Nat) : Action Nat String := .worker k (.record k)
  let consumer : Action Nat String := .consumer (.ok ())
  [worker 0, worker 1, worker 1, worker 1, worker 0, consumer, worker 0, consumer, consumer, consumer, consumer,
    consumer, consumer, consumer]

theorem sampleActions_deliver :
    (play [70, 90] 2 sampleActions).Returns (.ok ()) ∧
      ((play [70, 90] 2 sampleActions).calls.map Prod.fst).Perm (List.range 2) :=
  ⟨rfl, (sweep_delivers (play_reachable [70, 90] 2 sampleActions)).1 rfl⟩

end Sweep

end AutoTrader.Sim
