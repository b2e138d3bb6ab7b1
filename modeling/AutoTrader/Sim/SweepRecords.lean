import AutoTrader.Sim.SweepRuns

/-!
# The records of a sweep

A record stays with the position it is of on its way from a worker through the channel to `on_result`
(`Sweep.Carries`), one lemma for a step of a worker and two for a step of the consumer.
-/

namespace AutoTrader.Sim

namespace Sweep

variable {R E : Type} {indices : List Nat} {jobs : Nat} {s s' : Sweep R E} {P : Nat → R → Prop}

/-- Every record is with the position it is of. -/
structure Carries (P : Nat → R → Prop) (s : Sweep R E) : Prop where
  workers : ∀ i r, Worker.sending i r ∈ s.workers → P i r
  channel : ∀ i r, (i, r) ∈ s.channel → P i r
  consumer : ∀ i r, s.consumer = .handling i r → P i r
  calls : ∀ i r a, (i, r, a) ∈ s.calls → P i r

theorem carries_start (P : Nat → R → Prop) (indices : List Nat) (jobs : Nat) :
    Carries P (start indices jobs : Sweep R E) where
  workers _ _ h := by cases mem_start h
  channel _ _ h := by cases h
  consumer _ _ h := by
    rcases consumer_start (R := R) (E := E) indices jobs with hc | ⟨-, hc⟩ <;> rw [hc] at h <;> cases h
  calls _ _ _ h := by cases h

theorem Carries.setWorker (h : Carries P s) {k : Nat} {w : Worker R E} (hw : ∀ i r, w = .sending i r → P i r) :
    ∀ i r, Worker.sending i r ∈ (s.setWorker k w).workers → P i r := fun i r hmem => by
  rcases List.mem_or_eq_of_mem_set hmem with hold | heq
  · exact h.workers i r hold
  · exact hw i r heq.symm

theorem Carries.stepWorker (h : Carries P s) {k : Nat} {outcome : RunOutcome R E}
    (hrecord : ∀ i r, s.workers[k]? = some (.running i) → outcome = .record r → P i r)
    (hs : s.stepWorker indices jobs k outcome = some s') :
    Carries P s' ∧ s'.calls = s.calls ∧ s'.finalErr = s.finalErr := by
  have kept : ∀ {w : Worker R E} {u : Sweep R E}, (∀ i r, w = .sending i r → P i r) →
      u.workers = (s.setWorker k w).workers → u.channel = s.channel → u.consumer = s.consumer → u.calls = s.calls →
      u.finalErr = s.finalErr → Carries P u ∧ u.calls = s.calls ∧ u.finalErr = s.finalErr := by
    intro w u hw hworkers hchannel hconsumer hcalls herr
    refine ⟨⟨?_, ?_, ?_, ?_⟩, hcalls, herr⟩
    · rw [hworkers]
      exact h.setWorker hw
    · rw [hchannel]
      exact h.channel
    · rw [hconsumer]
      exact h.consumer
    · rw [hcalls]
      exact h.calls
  unfold Sweep.stepWorker at hs
  rcases hw : s.workers[k]? with _ | w
  · rw [hw] at hs
    cases hs
  rw [hw] at hs
  cases w with
  | claiming =>
    dsimp only at hs
    split at hs
    · obtain rfl := Option.some.inj hs
      exact kept (w := .stopped) (by simp) rfl rfl rfl rfl rfl
    · rename_i i queue _
      obtain rfl := Option.some.inj hs
      exact kept (w := .running i) (by simp) rfl rfl rfl rfl rfl
  | running i =>
    cases outcome with
    | record r =>
      obtain rfl := Option.some.inj hs
      refine kept (w := .sending i r) (fun j u heq => ?_) rfl rfl rfl rfl rfl
      obtain ⟨rfl, rfl⟩ := Worker.sending.inj heq
      exact hrecord _ _ hw rfl
    | fatal e =>
      obtain rfl := Option.some.inj hs
      exact kept (w := .fatal e) (by simp) rfl rfl rfl rfl rfl
    | panic message =>
      obtain rfl := Option.some.inj hs
      exact kept (w := .panicked (indices.getD i 0) message) (by simp) rfl rfl rfl rfl rfl
  | sending i r =>
    have hP : P i r := h.workers i r (List.mem_of_getElem? hw)
    dsimp only at hs
    split at hs
    · obtain rfl := Option.some.inj hs
      exact kept (w := .stopped) (by simp) rfl rfl rfl rfl rfl
    · split at hs
      · obtain rfl := Option.some.inj hs
        refine ⟨⟨h.setWorker (by simp), fun j u hmem => ?_, h.consumer, h.calls⟩, rfl, rfl⟩
        rcases List.mem_append.mp hmem with hmem | hmem
        · exact h.channel j u hmem
        · obtain ⟨rfl, rfl⟩ := Prod.mk.inj (List.mem_singleton.mp hmem)
          exact hP
      · cases hs
  | fatal e =>
    obtain rfl := Option.some.inj hs
    exact kept (w := .cancelling) (by simp) rfl rfl rfl rfl rfl
  | panicked idx message =>
    obtain rfl := Option.some.inj hs
    exact kept (w := .cancelling) (by simp) rfl rfl rfl rfl rfl
  | cancelling =>
    obtain rfl := Option.some.inj hs
    exact kept (w := .stopped) (by simp) rfl rfl rfl rfl rfl
  | stopped => cases hs

/-- What the consumer does with a record that it handles. -/
theorem Carries.handled (h : Carries P s) {i : Nat} {r : R} (hc : s.consumer = .handling i r) {answer : Except E Unit}
    (hs : s.stepConsumer indices answer = some s') :
    Carries P s' ∧ s'.calls = s.calls ++ [(i, r, answer)] ∧ (answer = .ok () → s'.finalErr = s.finalErr) ∧
      ((∃ e, answer = .error e) → s'.finalErr ≠ none) := by
  have hP : P i r := h.consumer i r hc
  have calls : ∀ j u a, (j, u, a) ∈ s.calls ++ [(i, r, answer)] → P j u := fun j u a hmem => by
    rcases List.mem_append.mp hmem with hmem | hmem
    · exact h.calls j u a hmem
    · obtain ⟨rfl, heq⟩ := Prod.mk.inj (List.mem_singleton.mp hmem)
      obtain ⟨rfl, -⟩ := Prod.mk.inj heq
      exact hP
  unfold stepConsumer at hs
  rw [hc] at hs
  rcases answer with e | ⟨⟩
  · obtain rfl := Option.some.inj hs
    exact ⟨⟨h.workers, h.channel, by simp, calls⟩, rfl, by simp, fun _ => by simp⟩
  · obtain rfl := Option.some.inj hs
    exact ⟨⟨h.workers, h.channel, by simp, calls⟩, rfl, fun _ => rfl, fun ⟨e, he⟩ => by cases he⟩

/-- What the consumer does otherwise. -/
theorem Carries.stepConsumer (h : Carries P s) (hc : ∀ i r, s.consumer ≠ .handling i r)
    (hs : s.stepConsumer indices (.ok ()) = some s') :
    Carries P s' ∧ s'.calls = s.calls ∧ s'.finalErr = s.finalErr := by
  have kept : ∀ {c : Consumer R E} {u : Sweep R E}, (∀ i r, c ≠ .handling i r) → u.workers = s.workers →
      u.channel <:+ s.channel → u.consumer = c → u.calls = s.calls → u.finalErr = s.finalErr →
      Carries P u ∧ u.calls = s.calls ∧ u.finalErr = s.finalErr := by
    intro c u hc hworkers hchannel hconsumer hcalls herr
    refine ⟨⟨?_, fun i r hmem => h.channel i r (hchannel.subset hmem), fun i r heq => ?_, ?_⟩, hcalls, herr⟩
    · rw [hworkers]
      exact h.workers
    · exact absurd (hconsumer.symm.trans heq) (hc i r)
    · rw [hcalls]
      exact h.calls
  unfold Sweep.stepConsumer at hs
  rcases hcon : s.consumer with _ | ⟨i, r⟩ | _ | _ | _ | result
  · rw [hcon] at hs
    dsimp only at hs
    split at hs
    · rcases hchannel : s.channel with _ | ⟨⟨i, r⟩, channel⟩
      · rw [hchannel] at hs
        dsimp only at hs
        split at hs
        · obtain rfl := Option.some.inj hs
          exact kept (c := .drained) (by simp) rfl List.nil_suffix rfl rfl rfl
        · cases hs
      · rw [hchannel] at hs
        have hrest : channel <:+ s.channel := by rw [hchannel]; exact List.suffix_cons _ _
        dsimp only at hs
        split at hs
        · obtain rfl := Option.some.inj hs
          exact kept (c := .receiving) (by simp) rfl hrest rfl rfl rfl
        · obtain rfl := Option.some.inj hs
          refine ⟨⟨h.workers, fun j u hmem => h.channel j u (hrest.subset hmem), fun j u heq => ?_, h.calls⟩, rfl, rfl⟩
          obtain ⟨rfl, rfl⟩ := Consumer.handling.inj heq
          exact h.channel _ _ (by rw [hchannel]; exact List.mem_cons_self)
    · obtain rfl := Option.some.inj hs
      exact kept (c := .drained) (by simp) rfl (List.suffix_refl _) rfl rfl rfl
  · exact absurd hcon (hc i r)
  · rw [hcon] at hs
    obtain rfl := Option.some.inj hs
    exact kept (c := .receiving) (by simp) rfl (List.suffix_refl _) rfl rfl rfl
  · rw [hcon] at hs
    dsimp only at hs
    split at hs
    · obtain rfl := Option.some.inj hs
      exact kept (c := .returned _) (by simp) rfl (List.suffix_refl _) rfl rfl rfl
    · obtain rfl := Option.some.inj hs
      exact kept (c := .returned _) (by simp) rfl (List.suffix_refl _) rfl rfl rfl
    · obtain rfl := Option.some.inj hs
      exact kept (c := .readingPanic) (by simp) rfl (List.suffix_refl _) rfl rfl rfl
  · rw [hcon] at hs
    obtain rfl := Option.some.inj hs
    exact kept (c := .returned _) (by simp) rfl (List.suffix_refl _) rfl rfl rfl
  · rw [hcon] at hs
    cases hs

end Sweep

end AutoTrader.Sim
