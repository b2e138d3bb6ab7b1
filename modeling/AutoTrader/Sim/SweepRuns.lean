import AutoTrader.Sim.Sweep
import Mathlib.Algebra.Order.BigOperators.Group.List
import Mathlib.Algebra.Order.Group.Nat
import Mathlib.Data.List.Perm.Subperm
import Mathlib.Data.List.Range

/-!
# The invariant of a sweep

Every position that was claimed is in exactly one place (`Inv.place`): with a worker, in the channel, with
the consumer, or done with. What the consumer has seen when its loop ends is `Inv.settled`, and a failed run
is stored before the queue is cancelled for it (`Inv.stored`). `Reachable.inv` carries the invariant through
every interleaving, one lemma for a step of a worker and one for a step of the consumer.
-/

namespace AutoTrader.Sim

variable {R E : Type}

/-! ## The invariant -/

/-- The position that a worker has claimed and not passed on. -/
def Worker.holds : Worker R E → List Nat
  | running i => [i]
  | sending i _ => [i]
  | _ => []

/-- The worker has a failure to store. -/
def Worker.Storing : Worker R E → Prop
  | fatal _ => True
  | panicked _ _ => True
  | _ => False

/-- The worker is about to cancel the queue, or to store a failure before it does. -/
def Worker.Failing : Worker R E → Prop
  | cancelling => True
  | w => w.Storing

/-- The index that the consumer holds. -/
def Consumer.holds : Consumer R E → List Nat
  | handling i _ => [i]
  | _ => []

/-- The draining loop is over. -/
def Consumer.Settled : Consumer R E → Prop
  | drained => True
  | readingPanic => True
  | returned _ => True
  | _ => False

namespace Sweep

variable {indices : List Nat} {jobs : Nat} {s s' : Sweep R E}

/-- All answers but an error at the end are good, and that error is the final one. -/
def Answers (calls : List (Nat × R × Except E Unit)) : Option E → Prop
  | none => ∀ c ∈ calls, c.2.2 = .ok ()
  | some e => ∃ earlier i r, calls = earlier ++ [(i, r, .error e)] ∧ ∀ c ∈ earlier, c.2.2 = .ok ()

/-- How often a position is somewhere: with a worker, in the channel, with the consumer, or done with. -/
def places (s : Sweep R E) (i : Nat) : Nat :=
  (s.workers.map fun w => w.holds.count i).sum + (s.channel.map Prod.fst).count i + s.consumer.holds.count i +
    (s.calls.map Prod.fst).count i + s.discarded.count i + s.failed.count i

/-- What holds in every run of a sweep. -/
structure Inv (indices : List Nat) (s : Sweep R E) : Prop where
  place : ∀ i, s.places i = if i < s.queue.next then 1 else 0
  next_le : s.queue.next ≤ indices.length
  claimed_eq : s.claimed = List.range s.queue.next
  workers_ne : indices ≠ [] → s.workers ≠ []
  received_eq : s.received = s.calls.length + s.discarded.length + s.consumer.holds.length
  answers : Answers s.calls s.finalErr
  handling : s.consumer.holds ≠ [] → s.finalErr = none
  kept : s.finalErr = none → s.discarded = []
  failing : ∀ w ∈ s.workers, w.Failing → s.failed ≠ []
  cancelled : s.queue.cancelled = true → s.failed ≠ [] ∨ s.finalErr.isSome = true
  cancelling : s.consumer = .cancelling → s.finalErr.isSome = true
  stopped : ∀ w ∈ s.workers, w.isStopped = true → s.queue.cancelled = true ∨ indices.length ≤ s.queue.next
  stored : s.failed ≠ [] → (∃ w ∈ s.workers, w.Storing) ∨ s.firstFatal.isSome = true ∨ s.firstPanic.isSome = true ∨
    ∃ e, s.consumer = .returned (.error e)
  settled : s.consumer.Settled →
    (s.channel = [] ∧ ∀ w ∈ s.workers, w.isStopped = true) ∨ indices.length ≤ s.received
  fatal_read : s.consumer = .readingPanic → s.finalErr = none ∧ s.firstFatal = none
  returned : ∀ result, s.consumer = .returned result →
    (∀ e, s.finalErr = some e → result = .error (.given e)) ∧ (result = .ok () → s.finalErr = none ∧ s.failed = [])

/-- A sum over a list, after one element of it is replaced. -/
theorem sum_map_set {α : Type} (f : α → Nat) : ∀ {l : List α} {k : Nat} {a : α}, l[k]? = some a → ∀ b,
    ((l.set k b).map f).sum + f a = (l.map f).sum + f b
  | [], k, a, h, _ => by simp at h
  | x :: l, 0, a, h, b => by
    obtain rfl : x = a := by simpa using h
    simp only [List.set_cons_zero, List.map_cons, List.sum_cons]
    omega
  | x :: l, k + 1, a, h, b => by
    have ih := sum_map_set f (l := l) (k := k) (a := a) (by simpa using h) b
    simp only [List.set_cons_succ, List.map_cons, List.sum_cons]
    omega

/-- Once as many records are received as there are indices, nothing is under way and nothing has failed. -/
theorem Inv.all_received (h : Inv indices s) (hr : indices.length ≤ s.received) (hc : s.consumer.holds = []) :
    s.queue.next = indices.length ∧ s.channel = [] ∧ s.failed = [] ∧ ∀ w ∈ s.workers, w.holds = [] := by
  have hle := h.next_le
  have hlen := h.received_eq
  rw [hc, List.length_nil] at hlen
  have hplace : ∀ i, (s.calls.map Prod.fst ++ s.discarded).count i +
      ((s.workers.map fun w => w.holds.count i).sum + (s.channel.map Prod.fst).count i + s.failed.count i) =
        if i < s.queue.next then 1 else 0 := by
    intro i
    have := h.place i
    rw [places, hc, List.count_nil] at this
    rw [List.count_append]
    omega
  have hnodup : (s.calls.map Prod.fst ++ s.discarded).Nodup := by
    refine List.nodup_iff_count.mpr fun i => ?_
    have := hplace i
    split at this <;> omega
  have hsub : (s.calls.map Prod.fst ++ s.discarded) ⊆ List.range s.queue.next := by
    intro i hi
    have hpos := List.count_pos_iff.mpr hi
    have := hplace i
    split at this
    · rename_i hlt
      exact List.mem_range.mpr hlt
    · omega
  have hperm : (s.calls.map Prod.fst ++ s.discarded).Perm (List.range s.queue.next) := by
    refine (hnodup.subperm hsub).perm_of_length_le ?_
    simp only [List.length_range, List.length_append, List.length_map]
    omega
  have hnext := hperm.length_eq
  simp only [List.length_range, List.length_append, List.length_map] at hnext
  have hzero : ∀ i, (s.workers.map fun w => w.holds.count i).sum + (s.channel.map Prod.fst).count i +
      s.failed.count i = 0 := by
    intro i
    have := hplace i
    rw [hperm.count_eq, List.count_range] at this
    split at this <;> omega
  refine ⟨by omega, ?_, ?_, fun w hw => ?_⟩
  · have hempty : s.channel.map Prod.fst = [] := by
      refine List.eq_nil_iff_forall_not_mem.mpr fun i hi => ?_
      have := List.count_pos_iff.mpr hi
      have := hzero i
      omega
    exact List.map_eq_nil_iff.mp hempty
  · refine List.eq_nil_iff_forall_not_mem.mpr fun i hi => ?_
    have := List.count_pos_iff.mpr hi
    have := hzero i
    omega
  · refine List.eq_nil_iff_forall_not_mem.mpr fun i hi => ?_
    have hpos := List.count_pos_iff.mpr hi
    have hmem : w.holds.count i ∈ s.workers.map fun w => w.holds.count i := List.mem_map_of_mem hw
    have hsum := List.single_le_sum (by simp) _ hmem
    have := hzero i
    omega

/-! ## Every step keeps the invariant -/

theorem places_setWorker {k : Nat} {w : Worker R E} (hw : s.workers[k]? = some w) (w' : Worker R E) (i : Nat) :
    (s.setWorker k w').places i + w.holds.count i = s.places i + w'.holds.count i := by
  have hsum := sum_map_set (fun w : Worker R E => w.holds.count i) hw w'
  unfold places setWorker
  dsimp only
  omega

theorem Consumer.Settled.holds {c : Consumer R E} (h : c.Settled) : c.holds = [] := by
  cases c with
  | handling i r => exact h.elim
  | _ => rfl

/-- After the draining loop a worker can only find that there is nothing left to claim. -/
theorem Inv.settled_worker (h : Inv indices s) (hs : s.consumer.Settled) {w : Worker R E} (hw : w ∈ s.workers) :
    w = .stopped ∨ w = .claiming ∧ indices.length ≤ s.queue.next := by
  rcases h.settled hs with ⟨-, hall⟩ | hr
  · have := hall w hw
    cases w with
    | stopped => exact .inl rfl
    | _ => cases this
  · obtain ⟨hnext, -, hfailed, hholds⟩ := h.all_received hr (Consumer.Settled.holds hs)
    have hf : ¬ w.Failing := fun hf => h.failing w hw hf hfailed
    have hh := hholds w hw
    cases w with
    | stopped => exact .inl rfl
    | claiming => exact .inr ⟨rfl, by omega⟩
    | running i => cases hh
    | sending i r => cases hh
    | fatal e => exact (hf trivial).elim
    | panicked idx message => exact (hf trivial).elim
    | cancelling => exact (hf trivial).elim

theorem mem_setWorker {k : Nat} {w' v : Worker R E} (hv : v ∈ (s.setWorker k w').workers) :
    v = w' ∨ v ∈ s.workers :=
  (List.mem_or_eq_of_mem_set hv).symm

/-- Another worker that stores a failure is still there. -/
theorem exists_setWorker {k : Nat} {w w' : Worker R E} (hw : s.workers[k]? = some w) (hn : ¬ w.Storing)
    (h : ∃ w ∈ s.workers, w.Storing) : ∃ v ∈ (s.setWorker k w').workers, v.Storing := by
  obtain ⟨v, hv, hst⟩ := h
  obtain ⟨j, hj⟩ := List.mem_iff_getElem?.mp hv
  have hne : k ≠ j := by
    rintro rfl
    rw [hw] at hj
    exact hn (Option.some.inj hj ▸ hst)
  refine ⟨v, List.mem_iff_getElem?.mpr ⟨j, ?_⟩, hst⟩
  show (s.workers.set k w')[j]? = some v
  rw [List.getElem?_set_ne hne]
  exact hj

theorem setWorker_ne_nil {k : Nat} {w' : Worker R E} (h : s.workers ≠ []) : (s.setWorker k w').workers ≠ [] := by
  intro hn
  exact h ((List.set_eq_nil_iff _ _).mp hn)

/-- A queue that is cancelled for an error. -/
theorem Inv.cancelQueue (h : Inv indices s) (hwhy : s.failed ≠ [] ∨ s.finalErr.isSome = true) :
    Inv indices { s with queue := { s.queue with cancelled := true } } :=
  { h with
    cancelled := fun _ => hwhy
    stopped := fun _ _ _ => .inl rfl }

/-! ### Workers -/

section Worker

variable {k : Nat} {w w' : Worker R E}

/-- After the draining loop a worker can only be about to stop. -/
theorem Inv.not_settled (h : Inv indices s) (hw : w ∈ s.workers) (hst : w.isStopped = false)
    (hc : w = .claiming → s.queue.next < indices.length) : ¬s.consumer.Settled := by
  intro hset
  rcases h.settled_worker hset hw with rfl | ⟨rfl, hle⟩
  · cases hst
  · have := hc rfl
    omega

theorem Inv.failing_setWorker (h : Inv indices s) (k : Nat) (hw' : w'.Failing → s.failed ≠ []) :
    ∀ v ∈ (s.setWorker k w').workers, v.Failing → s.failed ≠ [] := by
  intro v hv hf
  rcases mem_setWorker hv with rfl | hv
  · exact hw' hf
  · exact h.failing v hv hf

theorem Inv.stopped_setWorker (h : Inv indices s) (k : Nat)
    (hw' : w'.isStopped = true → s.queue.cancelled = true ∨ indices.length ≤ s.queue.next) :
    ∀ v ∈ (s.setWorker k w').workers, v.isStopped = true →
      s.queue.cancelled = true ∨ indices.length ≤ s.queue.next := by
  intro v hv hst
  rcases mem_setWorker hv with rfl | hv
  · exact hw' hst
  · exact h.stopped v hv hst

/-- A worker that goes on with the position it holds, or without one as before. -/
theorem Inv.setWorker (h : Inv indices s) (hw : s.workers[k]? = some w) {firstFatal : Option E}
    {firstPanic : Option (Nat × String)} (hholds : w'.holds = w.holds) (hfailing : w'.Failing → s.failed ≠ [])
    (hstopped : w'.isStopped = true → s.queue.cancelled = true ∨ indices.length ≤ s.queue.next)
    (hstored : s.failed ≠ [] → (∃ w ∈ (s.setWorker k w').workers, w.Storing) ∨ firstFatal.isSome = true ∨
      firstPanic.isSome = true ∨ ∃ e, s.consumer = .returned (.error e))
    (hsettled : s.consumer.Settled → w'.isStopped = true ∧ firstFatal = s.firstFatal) :
    Inv indices { s.setWorker k w' with firstFatal, firstPanic } :=
  { h with
    place := fun i => by
      have hplaces := places_setWorker hw w' i
      rw [hholds] at hplaces
      show (s.setWorker k w').places i = if i < s.queue.next then 1 else 0
      rw [← h.place i]
      omega
    workers_ne := fun hi => setWorker_ne_nil (h.workers_ne hi)
    failing := h.failing_setWorker k hfailing
    stopped := h.stopped_setWorker k hstopped
    stored := hstored
    settled := fun hset => (h.settled hset).imp_left fun ⟨hc, hall⟩ => ⟨hc, fun v hv => by
      rcases mem_setWorker hv with rfl | hv
      · exact (hsettled hset).1
      · exact hall v hv⟩
    fatal_read := fun hr => by
      have hset : s.consumer.Settled := by rw [show s.consumer = _ from hr]; trivial
      exact ⟨(h.fatal_read hr).1, (hsettled hset).2.trans (h.fatal_read hr).2⟩ }

theorem Inv.claim (h : Inv indices s) (hw : s.workers[k]? = some .claiming) (hc : s.queue.cancelled = false)
    (hn : s.queue.next < indices.length) :
    Inv indices { s.setWorker k (.running s.queue.next) with
      queue := { s.queue with next := s.queue.next + 1 }, claimed := s.claimed ++ [s.queue.next] } := by
  have hnone : ∀ v ∈ s.workers, v.isStopped = false := by
    intro v hv
    by_contra hst
    rcases h.stopped v hv (by simpa using hst) with hcan | hle
    · rw [hc] at hcan
      cases hcan
    · omega
  exact { h with
    place := fun i => by
      have hp := places_setWorker hw (.running s.queue.next) i
      have hq := h.place i
      show (s.setWorker k (.running s.queue.next)).places i = if i < s.queue.next + 1 then 1 else 0
      by_cases hi : i = s.queue.next
      · subst hi
        simp only [Worker.holds, List.count_nil, List.count_singleton_self, Nat.lt_irrefl, ↓reduceIte] at hp hq
        simp only [Nat.lt_succ_self, ↓reduceIte]
        omega
      · have hcount : [s.queue.next].count i = 0 := List.count_eq_zero.mpr (by simpa using hi)
        simp only [Worker.holds, List.count_nil, hcount] at hp
        split <;> split at hq <;> omega
    next_le := hn
    claimed_eq := by
      show s.claimed ++ [s.queue.next] = List.range (s.queue.next + 1)
      rw [List.range_succ, h.claimed_eq]
    workers_ne := fun hi => setWorker_ne_nil (h.workers_ne hi)
    failing := h.failing_setWorker k fun hf => hf.elim
    stopped := fun v hv hst => by
      rcases mem_setWorker hv with rfl | hv
      · cases hst
      · rw [hnone v hv] at hst
        cases hst
    stored := fun hf => (h.stored hf).imp_left (exists_setWorker hw not_false)
    settled := fun hset => absurd hset (h.not_settled (List.mem_of_getElem? hw) rfl fun _ => hn) }

theorem Inv.fails (h : Inv indices s) {i : Nat} (hw : s.workers[k]? = some (.running i)) (hholds : w'.holds = [])
    (hstoring : w'.Storing) (hrun : w'.isStopped = false) :
    Inv indices { s.setWorker k w' with failed := i :: s.failed } := by
  have hlt : k < s.workers.length := (List.getElem?_eq_some_iff.mp hw).1
  have hset : ¬s.consumer.Settled := h.not_settled (List.mem_of_getElem? hw) rfl fun he => by cases he
  exact { h with
    place := fun j => by
      have hp := places_setWorker hw w' j
      rw [hholds, List.count_nil, show (Worker.running i : Worker R E).holds = [i] from rfl] at hp
      refine Eq.trans ?_ (h.place j)
      simp only [places, Sweep.setWorker, List.count_cons, List.count_nil] at hp ⊢
      omega
    workers_ne := fun hi => setWorker_ne_nil (h.workers_ne hi)
    failing := fun _ _ _ => List.cons_ne_nil _ _
    cancelled := fun _ => .inl (List.cons_ne_nil _ _)
    stopped := h.stopped_setWorker k fun hst => by
      rw [hrun] at hst
      cases hst
    stored := fun _ => .inl ⟨w', List.mem_set hlt w', hstoring⟩
    settled := fun hs => absurd hs hset
    returned := fun result hr => absurd (by rw [show s.consumer = _ from hr]; trivial) hset }

theorem Inv.send (h : Inv indices s) {i : Nat} {r : R} (hw : s.workers[k]? = some (.sending i r)) :
    Inv indices { s.setWorker k .claiming with channel := s.channel ++ [(i, r)] } :=
  { h with
    place := fun j => by
      have hp := places_setWorker hw .claiming j
      refine Eq.trans ?_ (h.place j)
      simp only [Worker.holds, places, Sweep.setWorker, List.map_append, List.count_append, List.map_cons, List.map_nil,
        List.count_nil] at hp ⊢
      omega
    workers_ne := fun hi => setWorker_ne_nil (h.workers_ne hi)
    failing := h.failing_setWorker k fun hf => hf.elim
    stopped := h.stopped_setWorker k fun hst => by cases hst
    stored := fun hf => (h.stored hf).imp_left (exists_setWorker hw not_false)
    settled := fun hset => absurd hset (h.not_settled (List.mem_of_getElem? hw) rfl fun he => by cases he) }

theorem Inv.workerStep (h : Inv indices s) (hw : s.workers[k]? = some w) (hs : WorkerStep indices s k w s') :
    Inv indices s' := by
  have hmem : w ∈ s.workers := List.mem_of_getElem? hw
  cases hs with
  | noClaim hstop =>
    exact h.setWorker hw rfl (fun hf => hf.elim) (fun _ => hstop)
      (fun hf => (h.stored hf).imp_left (exists_setWorker hw not_false)) fun _ => ⟨rfl, rfl⟩
  | claim hc hn => exact h.claim hw hc hn
  | record i r =>
    have hset := h.not_settled hmem rfl fun he => by cases he
    exact h.setWorker hw rfl (fun hf => hf.elim) (fun hst => by cases hst)
      (fun hf => (h.stored hf).imp_left (exists_setWorker hw not_false)) fun hs => absurd hs hset
  | fails i w' hw' =>
    rcases hw' with ⟨e, rfl⟩ | ⟨idx, message, rfl⟩
    · exact h.fails hw rfl trivial rfl
    · exact h.fails hw rfl trivial rfl
  | sendClosed i r hc =>
    refine absurd ?_ (h.not_settled hmem rfl fun he => by cases he)
    unfold closed at hc
    split at hc
    · rename_i he
      rw [he]
      trivial
    · cases hc
  | send i r hc => exact h.send hw
  | storeFatal e =>
    have hset := h.not_settled hmem rfl fun he => by cases he
    exact h.setWorker hw rfl (fun _ => h.failing _ hmem trivial) (fun hst => by cases hst)
      (fun _ => .inr (.inl (by simp))) fun hs => absurd hs hset
  | storePanic idx message =>
    have hset := h.not_settled hmem rfl fun he => by cases he
    exact h.setWorker hw rfl (fun _ => h.failing _ hmem trivial) (fun hst => by cases hst)
      (fun _ => .inr (.inr (.inl (by simp)))) fun hs => absurd hs hset
  | cancel =>
    have hfailed : s.failed ≠ [] := h.failing _ hmem trivial
    have hcancelled := h.cancelQueue (.inl hfailed)
    exact hcancelled.setWorker hw rfl (fun _ => hfailed) (fun _ => .inl rfl)
      (fun hf => (h.stored hf).imp_left (exists_setWorker hw not_false)) fun _ => ⟨rfl, rfl⟩

end Worker

/-! ### The consumer -/

/-- The consumer stays in its draining loop, or enters it again. -/
theorem Inv.loops (h : Inv indices s) (hc : ∀ result, s.consumer ≠ .returned result) {consumer : Consumer R E}
    {channel : List (Nat × R)} {received : Nat} {calls : List (Nat × R × Except E Unit)} {discarded : List Nat}
    {finalErr : Option E} (hloop : ¬consumer.Settled)
    (hplace : ∀ i, places { s with consumer, channel, received, calls, discarded, finalErr } i = s.places i)
    (hreceived : received = calls.length + discarded.length + consumer.holds.length)
    (hanswers : Answers calls finalErr) (hhandling : consumer.holds ≠ [] → finalErr = none)
    (hkept : finalErr = none → discarded = []) (hcancelling : consumer = .cancelling → finalErr.isSome = true)
    (hkeeps : s.finalErr.isSome = true → finalErr.isSome = true) :
    Inv indices { s with consumer, channel, received, calls, discarded, finalErr } :=
  { h with
    place := fun i => (hplace i).trans (h.place i)
    received_eq := hreceived
    answers := hanswers
    handling := hhandling
    kept := hkept
    cancelled := fun hq => (h.cancelled hq).imp_right hkeeps
    cancelling := hcancelling
    stored := fun hf => by
      rcases h.stored hf with hw | hfatal | hpanic | ⟨e, he⟩
      · exact .inl hw
      · exact .inr (.inl hfatal)
      · exact .inr (.inr (.inl hpanic))
      · exact absurd he (hc _)
    settled := fun hset => absurd hset hloop
    fatal_read := fun hr => absurd (by rw [show consumer = _ from hr]; trivial) hloop
    returned := fun result hr => absurd (by rw [show consumer = _ from hr]; trivial) hloop }

/-- The consumer has left its draining loop, and goes on or returns. -/
theorem Inv.ends (h : Inv indices s) (hc : s.consumer.holds = []) {consumer : Consumer R E} {firstFatal : Option E}
    {firstPanic : Option (Nat × String)} (hset : consumer.Settled)
    (hsettled : (s.channel = [] ∧ ∀ w ∈ s.workers, w.isStopped = true) ∨ indices.length ≤ s.received)
    (hstored : s.failed ≠ [] → (∃ w ∈ s.workers, w.Storing) ∨ firstFatal.isSome = true ∨ firstPanic.isSome = true ∨
      ∃ e, consumer = .returned (.error e))
    (hfatal : consumer = .readingPanic → s.finalErr = none ∧ firstFatal = none)
    (hreturned : ∀ result, consumer = .returned result →
      (∀ e, s.finalErr = some e → result = .error (.given e)) ∧
        (result = .ok () → s.finalErr = none ∧ s.failed = [])) :
    Inv indices { s with consumer, firstFatal, firstPanic } :=
  { h with
    place := fun i => by
      rw [← h.place i]
      unfold places
      rw [hc, Consumer.Settled.holds hset]
    received_eq := by
      have hreceived := h.received_eq
      rw [hc] at hreceived
      rw [Consumer.Settled.holds hset]
      exact hreceived
    handling := fun hh => absurd (Consumer.Settled.holds hset) hh
    cancelling := fun hcan => by
      rw [show consumer = _ from hcan] at hset
      exact hset.elim
    stored := hstored
    settled := fun _ => hsettled
    fatal_read := hfatal
    returned := hreturned }

/-- A failure that no worker is about to store and that is no fatal error is a panic. -/
theorem Inv.panicked (h : Inv indices s) (hc : s.consumer = .readingPanic) (hf : s.failed ≠ []) :
    ∃ e, sweepPanicResult (E := E) s.firstPanic = .error e := by
  have hset : s.consumer.Settled := by
    rw [hc]
    trivial
  rcases h.stored hf with ⟨w, hw, hst⟩ | hsome | hpanic | ⟨e, he⟩
  · rcases h.settled_worker hset hw with rfl | ⟨rfl, -⟩ <;> exact hst.elim
  · rw [(h.fatal_read hc).2] at hsome
    cases hsome
  · obtain ⟨⟨idx, message⟩, hp⟩ := Option.isSome_iff_exists.mp hpanic
    rw [hp]
    exact ⟨_, rfl⟩
  · rw [hc] at he
    cases he

/-- The consumer takes the record at the front of the channel. -/
theorem Inv.takes (h : Inv indices s) (hc : s.consumer = .receiving) {i : Nat} {r : R} {channel : List (Nat × R)}
    (hchannel : s.channel = (i, r) :: channel) {consumer : Consumer R E} {discarded : List Nat}
    (htaken : consumer = .receiving ∧ discarded = i :: s.discarded ∧ s.finalErr.isSome = true ∨
      consumer = .handling i r ∧ discarded = s.discarded ∧ s.finalErr = none) :
    Inv indices { s with channel, received := s.received + 1, consumer, discarded } := by
  have hreceived := h.received_eq
  rw [hc] at hreceived
  have hreturned : ∀ result, s.consumer ≠ .returned result := fun result hr => by
    rw [hc] at hr
    cases hr
  rcases htaken with ⟨rfl, rfl, he⟩ | ⟨rfl, rfl, he⟩
  · refine h.loops hreturned not_false (fun j => ?_) ?_ h.answers (fun hh => absurd rfl hh) (fun hn => ?_)
      (fun hcan => by cases hcan) id
    · simp only [places, hc, hchannel, Consumer.holds, List.count_nil, List.map_cons, List.count_cons]
      omega
    · simp only [Consumer.holds, List.length_nil, List.length_cons] at hreceived ⊢
      omega
    · rw [hn] at he
      cases he
  · refine h.loops hreturned not_false (fun j => ?_) ?_ h.answers (fun _ => he) h.kept (fun hcan => by cases hcan) id
    · simp only [places, hc, hchannel, Consumer.holds, List.count_nil, List.map_cons, List.count_cons]
      omega
    · simp only [Consumer.holds, List.length_nil, List.length_cons] at hreceived ⊢
      omega

/-- The consumer has the answer to the record that it handles. -/
theorem Inv.answered (h : Inv indices s) {i : Nat} {r : R} (hc : s.consumer = .handling i r)
    {answer : Except E Unit} {consumer : Consumer R E} {finalErr : Option E}
    (hanswer : answer = .ok () ∧ consumer = .receiving ∧ finalErr = s.finalErr ∨
      ∃ e, answer = .error e ∧ consumer = .cancelling ∧ finalErr = some e) :
    Inv indices { s with consumer, finalErr, calls := s.calls ++ [(i, r, answer)] } := by
  have hnone : s.finalErr = none := h.handling (by rw [hc]; exact List.cons_ne_nil _ _)
  have hanswers := h.answers
  have hreceived := h.received_eq
  rw [hnone] at hanswers
  rw [hc] at hreceived
  have hreturned : ∀ result, s.consumer ≠ .returned result := fun result hr => by
    rw [hc] at hr
    cases hr
  have hholds : consumer.holds = [] := by
    rcases hanswer with ⟨-, rfl, -⟩ | ⟨e, -, rfl, -⟩ <;> rfl
  have hplace : ∀ j, places { s with consumer, finalErr, calls := s.calls ++ [(i, r, answer)] } j = s.places j := by
    intro j
    simp only [places]
    rw [hholds, hc]
    simp only [Consumer.holds, List.count_nil, List.map_append, List.count_append, List.map_cons, List.map_nil]
    omega
  have hlen : s.received = (s.calls ++ [(i, r, answer)]).length + s.discarded.length + consumer.holds.length := by
    rw [hholds]
    simp only [Consumer.holds, List.length_nil, List.length_cons, List.length_append] at hreceived ⊢
    omega
  rcases hanswer with ⟨rfl, rfl, rfl⟩ | ⟨e, rfl, rfl, rfl⟩
  · refine h.loops hreturned not_false hplace hlen ?_ (fun hh => absurd rfl hh) h.kept (fun hcan => by cases hcan) id
    rw [hnone]
    intro call hcall
    rcases List.mem_append.mp hcall with hcall | hcall
    · exact hanswers call hcall
    · rw [List.mem_singleton.mp hcall]
  · exact h.loops hreturned not_false hplace hlen ⟨s.calls, i, r, rfl, hanswers⟩ (fun hh => absurd rfl hh)
      (fun hn => by cases hn) (fun _ => rfl) fun _ => rfl

theorem Inv.consumerStep (h : Inv indices s) {c : Consumer R E} (hc : s.consumer = c)
    (hs : ConsumerStep indices s c s') : Inv indices s' := by
  have hstored : (∀ e, c ≠ .returned (.error e)) → ∀ c' : Consumer R E, s.failed ≠ [] →
      (∃ w ∈ s.workers, w.Storing) ∨ s.firstFatal.isSome = true ∨ s.firstPanic.isSome = true ∨
        ∃ e, c' = .returned (.error e) := by
    intro hne c' hf
    rcases h.stored hf with hw | hfatal | hpanic | ⟨e, he⟩
    · exact .inl hw
    · exact .inr (.inl hfatal)
    · exact .inr (.inr (.inl hpanic))
    · exact (hne e (hc.symm.trans he)).elim
  have hholds : c.Settled → s.consumer.holds = [] := fun hset => by rw [hc]; exact Consumer.Settled.holds hset
  have hsettled : c.Settled → (s.channel = [] ∧ ∀ w ∈ s.workers, w.isStopped = true) ∨ indices.length ≤ s.received :=
    fun hset => h.settled (by rw [hc]; exact hset)
  cases hs with
  | discard i r channel hchannel he => exact h.takes hc hchannel (.inl ⟨rfl, rfl, he⟩)
  | receive i r channel hchannel he => exact h.takes hc hchannel (.inr ⟨rfl, rfl, he⟩)
  | drain hd =>
    exact h.ends (by rw [hc]; rfl) trivial hd.symm (hstored (fun _ he => by cases he) _) (fun hr => by cases hr)
      fun result hr => by cases hr
  | handled i r => exact h.answered hc (.inl ⟨rfl, rfl, rfl⟩)
  | refused i r e => exact h.answered hc (.inr ⟨e, rfl, rfl, rfl⟩)
  | cancel =>
    have hsome := h.cancelling hc
    have hloops : Inv indices { s with consumer := .receiving } := by
      refine h.loops (fun result hr => ?_) not_false (fun j => ?_) ?_ h.answers (fun hh => absurd rfl hh) h.kept
        (fun hcan => by cases hcan) id
      · rw [hc] at hr
        cases hr
      · rw [places, places, hc]
        rfl
      · have hreceived := h.received_eq
        rw [hc] at hreceived
        exact hreceived
    exact hloops.cancelQueue (.inr hsome)
  | finalErr e he =>
    refine h.ends (hholds trivial) trivial (hsettled trivial) (fun _ => .inr (.inr (.inr ⟨_, rfl⟩)))
      (fun hr => by cases hr) fun result hr => ?_
    obtain rfl : _ = result := Consumer.returned.inj hr
    refine ⟨fun e' he' => ?_, fun hok => (by cases hok)⟩
    obtain rfl : e = e' := Option.some.inj (he.symm.trans he')
    rfl
  | fatal e hn he =>
    refine h.ends (hholds trivial) trivial (hsettled trivial) (fun _ => .inr (.inr (.inr ⟨_, rfl⟩)))
      (fun hr => by cases hr) fun result hr => ?_
    obtain rfl : _ = result := Consumer.returned.inj hr
    refine ⟨fun e' he' => ?_, fun hok => (by cases hok)⟩
    rw [he'] at hn
    cases hn
  | noFatal hn he =>
    exact h.ends (hholds trivial) trivial (hsettled trivial) (hstored (fun _ he => by cases he) _)
      (fun _ => ⟨hn, he⟩) fun result hr => by cases hr
  | panic =>
    refine h.ends (hholds trivial) trivial (hsettled trivial) (fun hf => ?_) (fun hr => by cases hr)
      fun result hr => ?_
    · obtain ⟨e, he⟩ := h.panicked hc hf
      exact .inr (.inr (.inr ⟨e, congrArg Consumer.returned he⟩))
    obtain rfl : _ = result := Consumer.returned.inj hr
    refine ⟨fun e he => ?_, fun hok => ⟨(h.fatal_read hc).1, ?_⟩⟩
    · rw [(h.fatal_read hc).1] at he
      cases he
    · by_contra hf
      obtain ⟨e, he⟩ := h.panicked hc hf
      rw [he] at hok
      cases hok

theorem mem_start {w : Worker R E} (hw : w ∈ (start indices jobs : Sweep R E).workers) : w = .claiming := by
  unfold start at hw
  dsimp only at hw
  split at hw
  · cases hw
  · exact (List.mem_replicate.mp hw).2

/-- Without indices the run is over at once. -/
theorem consumer_start (indices : List Nat) (jobs : Nat) :
    (start indices jobs : Sweep R E).consumer = .receiving ∨
      indices = [] ∧ (start indices jobs : Sweep R E).consumer = .returned (.ok ()) := by
  unfold start
  dsimp only
  split
  · rename_i hi
    exact .inr ⟨hi, rfl⟩
  · exact .inl rfl

theorem start_inv (indices : List Nat) (jobs : Nat) : Inv indices (start indices jobs : Sweep R E) := by
  have hconsumer := consumer_start (R := R) (E := E) indices jobs
  have hholds : (start indices jobs : Sweep R E).consumer.holds = [] := by
    rcases hconsumer with hc | ⟨-, hc⟩ <;> rw [hc] <;> rfl
  exact {
    place := fun i => by
      have hworkers : ((start indices jobs : Sweep R E).workers.map fun w => w.holds.count i).sum = 0 := by
        refine List.sum_eq_zero fun n hn => ?_
        obtain ⟨w, hw, rfl⟩ := List.mem_map.mp hn
        rw [mem_start hw]
        rfl
      unfold places
      rw [hworkers, hholds]
      rfl
    next_le := Nat.zero_le _
    claimed_eq := rfl
    workers_ne := fun hi => by
      unfold start
      simp only [hi, ↓reduceIte, ne_eq, List.replicate_eq_nil_iff]
      omega
    received_eq := by
      rw [hholds]
      rfl
    answers := fun _ hc => by cases hc
    handling := fun _ => rfl
    kept := fun _ => rfl
    failing := fun w hw hf => by
      rw [mem_start hw] at hf
      exact hf.elim
    cancelled := fun hc => by cases hc
    cancelling := fun hc => by
      rcases hconsumer with he | ⟨-, he⟩
      · cases he.symm.trans hc
      · cases he.symm.trans hc
    stopped := fun w hw hst => by
      rw [mem_start hw] at hst
      cases hst
    stored := fun hf => (hf rfl).elim
    settled := fun hset => by
      rcases hconsumer with he | ⟨rfl, -⟩
      · rw [he] at hset
        exact hset.elim
      · exact .inr (Nat.le_refl 0)
    fatal_read := fun hr => by
      rcases hconsumer with he | ⟨-, he⟩
      · cases he.symm.trans hr
      · cases he.symm.trans hr
    returned := fun result hr => by
      rcases hconsumer with he | ⟨-, he⟩
      · cases he.symm.trans hr
      · obtain rfl : _ = result := Consumer.returned.inj (he.symm.trans hr)
        exact ⟨fun _ h => (by cases h), fun _ => ⟨rfl, rfl⟩⟩ }

theorem Reachable.inv (h : Reachable indices jobs s) : Inv indices s := by
  induction h with
  | start => exact start_inv indices jobs
  | step a _ hs ih =>
    cases a with
    | worker k outcome =>
      obtain ⟨w, hw, hcase⟩ := stepWorker_cases hs
      exact ih.workerStep hw hcase
    | consumer answer => exact ih.consumerStep rfl (stepConsumer_cases hs)

end Sweep

end AutoTrader.Sim
