import AutoTrader.Executor.Actor

/-!
# Runs of all tasks

A run of the system starts with one task per thread number, and every step is a call of one of them,
answered by the world, or a move of the world. `step_cases` says what a step can do to the database,
and `db_invariant` is the induction for what holds of the database and the stages of all tasks.
-/

namespace AutoTrader

open Lib (Config History Label Step)

variable {ε : Type} {E : ExchangeModel ε} {actors : Nat → Actor} {w₀ : World ε}

/-- A run over an exchange with states `ε`. -/
abbrev Run (ε : Type) := History Calls (World ε) Move (Except Error Outcome)

/-- The configuration a run starts in. -/
def begin (w₀ : World ε) (actors : Nat → Actor) : Config Calls (World ε) (Except Error Outcome) :=
  ⟨w₀, fun i => (actors i).prog.run⟩

/-- `h` is a run of the tasks from `w₀`. -/
def Run.Of (E : ExchangeModel ε) (w₀ : World ε) (actors : Nat → Actor) (h : Run ε) : Prop :=
  h.Valid (worldSys E) (begin w₀ actors)

/-- A step that makes no query. -/
def quietStep : Label Calls Move → Prop
  | .call _ q _ => q.quiet
  | .move _ => True

/-- A step that calls the exchange. -/
def apiStep : Label Calls Move → Bool
  | .call _ (.api _) _ => true
  | _ => false

namespace Run

/-- Every task with none of its database work done. -/
def starting (actors : Nat → Actor) (i : Nat) : Actor × Stage := (actors i, .idle)

/-- How far each task is with its database work. -/
def stage (actors : Nat → Actor) (h : Run ε) (i : Nat) : Stage :=
  (h.phases settling (starting actors) i).2

theorem phase_fst (i : Nat) : ∀ h : Run ε, (h.phases settling (starting actors) i).1 = actors i
  | .start _ => rfl
  | .step h (.move _) _ => phase_fst i h
  | .step h (.call j q r) _ => by
    simp only [History.phases]
    by_cases hij : i = j
    · subst hij
      rw [Function.update_self]
      cases q <;> exact phase_fst i h
    · rw [Function.update_of_ne hij]; exact phase_fst i h

theorem phase_eq (h : Run ε) (i : Nat) :
    h.phases settling (starting actors) i = (actors i, h.stage actors i) :=
  Prod.ext (phase_fst i h) rfl

@[simp] theorem stage_start (c : Config Calls (World ε) (Except Error Outcome)) :
    stage actors (.start c : Run ε) = fun _ => .idle := rfl

@[simp] theorem stage_db (h : Run ε) (i : Nat) (q : Query) (r : Except Error q.Ok)
    (c : Config Calls (World ε) (Except Error Outcome)) :
    stage actors (.step h (.call i (.db q) r) c : Run ε) =
      Function.update (h.stage actors) i ((h.stage actors i).after q r) := by
  funext j
  simp only [stage, History.phases]
  by_cases hij : j = i
  · subst hij
    simp only [Function.update_self]; rfl
  · simp only [Function.update_of_ne hij]; rfl

@[simp] theorem stage_move (h : Run ε) (m : Move) (c : Config Calls (World ε) (Except Error Outcome)) :
    stage actors (.step h (.move m) c : Run ε) = h.stage actors := rfl

theorem stage_quiet (h : Run ε) (i : Nat) (q : Calls.Call) (hq : Call.quiet q) (r : Calls.Ret q)
    (c : Config Calls (World ε) (Except Error Outcome)) :
    stage actors (.step h (.call i q r) c : Run ε) = h.stage actors := by
  funext j
  simp only [stage, History.phases]
  by_cases hij : j = i
  · subst hij
    rw [Function.update_self, ((settling_quiet q hq).2 r)]
  · rw [Function.update_of_ne hij]

theorem stage_call_ne (h : Run ε) {i j : Nat} (q : Calls.Call) (r : Calls.Ret q)
    (c : Config Calls (World ε) (Except Error Outcome)) (hij : j ≠ i) :
    stage actors (.step h (.call i q r) c : Run ε) j = h.stage actors j := by
  simp only [stage, History.phases, Function.update_of_ne hij]

theorem meets_begin (i : Nat) :
    Lib.Prog.Meets settling (starting actors i) ((begin w₀ actors).thread i) Actor.ended :=
  (actors i).settling

theorem Of.mayAsk {h : Run ε} (hv : h.Of E w₀ actors) {i : Nat} {q : Query} {r : Except Error q.Ok}
    {c : Config Calls (World ε) (Except Error Outcome)} (hs : Step (worldSys E) h.last (.call i (.db q) r) c) :
    (actors i).MayAsk (h.stage actors i) q := by
  have := History.Valid.allowed (meets_begin i) hv hs
  rw [phase_eq] at this
  exact this

/-- A task that ended did so as `Actor.ended` says. -/
theorem Of.ended {h : Run ε} (hv : h.Of E w₀ actors) {i : Nat} {r : Except Error Outcome}
    (hr : h.last.thread i = .done r) : Actor.ended (actors i, h.stage actors i) r := by
  have := History.Valid.meets (meets_begin i) hv
  rw [hr, phase_eq] at this
  exact this

/-- A query that was answered is committed. -/
theorem committed {h : Run ε} {i : Nat} {q : Query} {a : q.Ok} {c : Config Calls (World ε) (Except Error Outcome)}
    (hs : Step (worldSys E) h.last (.call i (.db q) (.ok a)) c) :
    q.tx.run h.world.now h.world.db = .ok (a, c.world.db) := by
  obtain ⟨⟨db, hdb, hw⟩, -⟩ := hs
  rw [hw]
  exact hdb

/-- What one step can do to the database. -/
theorem world_cases {h : Run ε} {l : Label Calls Move} {c : Config Calls (World ε) (Except Error Outcome)}
    (hs : Step (worldSys E) h.last l c) :
    (∃ i q a, l = .call i (.db q) (.ok a) ∧ q.wrote h.world.now h.world.db a c.world.db ∧
      c.world.now = h.world.now) ∨
    (∃ i q e, l = .call i (.db q) (.error e) ∧ c.world = h.world) ∨
    (∃ accountId leverage, l = .move (.setLeverage accountId leverage) ∧
      c.world = { h.world with db := setLeverage accountId leverage h.world.db }) ∨
    (c.world.db = h.world.db ∧ quietStep l ∧ h.world.now ≤ c.world.now) := by
  cases l with
  | move m =>
    cases m with
    | tick t =>
      obtain ⟨⟨ht, hw⟩, -⟩ := hs
      refine .inr (.inr (.inr ⟨by rw [hw]; rfl, trivial, ?_⟩))
      rw [hw]; exact Int.le_add_of_nonneg_right ht
    | exchange =>
      obtain ⟨⟨x, -, hw⟩, -⟩ := hs
      exact .inr (.inr (.inr ⟨by rw [hw]; rfl, trivial, by rw [hw]; exact Int.le_refl _⟩))
    | setLeverage accountId leverage => exact .inr (.inr (.inl ⟨accountId, leverage, rfl, hs.1⟩))
  | call i q r =>
    cases q with
    | db q =>
      obtain ⟨⟨db, hdb, hw⟩, -⟩ := hs
      cases r with
      | ok a => exact .inl ⟨i, q, a, rfl, by rw [hw]; exact Query.wrote_of_ok hdb, by rw [hw]; rfl⟩
      | error e =>
        have hdb : db = h.world.db := hdb
        exact .inr (.inl ⟨i, q, e, rfl, by rw [hw, hdb]; rfl⟩)
    | api a =>
      obtain ⟨⟨x, -, hw⟩, -⟩ := hs
      exact .inr (.inr (.inr ⟨by rw [hw]; rfl, trivial, by rw [hw]; exact Int.le_refl _⟩))
    | latestBidAsk _ _ | lastTickAge _ _ | utcNow | newUuid | pollPasses =>
      have hw : c.world = h.world := hs.1
      exact .inr (.inr (.inr ⟨by rw [hw], trivial, by rw [hw]⟩))

/-- What one step can do to the database and the stages. -/
theorem Of.step_cases {h : Run ε} (hv : h.Of E w₀ actors) {l : Label Calls Move}
    {c : Config Calls (World ε) (Except Error Outcome)} (hs : Step (worldSys E) h.last l c) :
    (∃ i q a, l = .call i (.db q) (.ok a) ∧ (actors i).MayAsk (h.stage actors i) q ∧
      q.wrote h.world.now h.world.db a c.world.db ∧ c.world.now = h.world.now) ∨
    (∃ i q e, l = .call i (.db q) (.error e) ∧ (actors i).MayAsk (h.stage actors i) q ∧ c.world = h.world) ∨
    (∃ accountId leverage, l = .move (.setLeverage accountId leverage) ∧
      c.world = { h.world with db := setLeverage accountId leverage h.world.db }) ∨
    (c.world.db = h.world.db ∧ stage actors (.step h l c : Run ε) = h.stage actors ∧
      quietStep l ∧ h.world.now ≤ c.world.now) := by
  rcases world_cases hs with ⟨i, q, a, rfl, hw, hnow⟩ | ⟨i, q, e, rfl, hw⟩ | hl | ⟨hdb, hq, hnow⟩
  · exact .inl ⟨i, q, a, rfl, hv.mayAsk hs, hw, hnow⟩
  · exact .inr (.inl ⟨i, q, e, rfl, hv.mayAsk hs, hw⟩)
  · exact .inr (.inr (.inl hl))
  · refine .inr (.inr (.inr ⟨hdb, ?_, hq, hnow⟩))
    cases l with
    | move m => rfl
    | call i q r => exact stage_quiet h i q hq r c

/-- A call of the API is answered by the exchange. -/
theorem exchange_api {h : Run ε} {i : Nat} {q : ApiCall} {r : q.Ret}
    {c : Config Calls (World ε) (Except Error Outcome)} (hs : Step (worldSys E) h.last (.call i (.api q) r) c) :
    E.respond i h.world.exchange q r c.world.exchange := by
  obtain ⟨⟨x, hx, hw⟩, -⟩ := hs
  rw [hw]
  exact hx

/-- A query leaves the exchange as it is. -/
theorem exchange_db {h : Run ε} {i : Nat} {q : Query} {r : Except Error q.Ok}
    {c : Config Calls (World ε) (Except Error Outcome)} (hs : Step (worldSys E) h.last (.call i (.db q) r) c) :
    c.world.exchange = h.world.exchange := by
  obtain ⟨⟨db, -, hw⟩, -⟩ := hs
  rw [hw]
  rfl

/-- What one step can do at the exchange. -/
theorem exchange_cases {h : Run ε} {l : Label Calls Move} {c : Config Calls (World ε) (Except Error Outcome)}
    (hs : Step (worldSys E) h.last l c) :
    (∃ i q, ∃ r : q.Ret, l = .call i (.api q) r ∧ E.respond i h.world.exchange q r c.world.exchange ∧
      c.world.db = h.world.db) ∨
    (l = .move .exchange ∧ E.move h.world.exchange c.world.exchange ∧ c.world.db = h.world.db) ∨
    (c.world.exchange = h.world.exchange ∧ ¬ apiStep l) := by
  cases l with
  | move m =>
    cases m with
    | tick t => exact .inr (.inr ⟨by rw [hs.1.2]; rfl, Bool.false_ne_true⟩)
    | exchange =>
      obtain ⟨⟨x, hx, hw⟩, -⟩ := hs
      exact .inr (.inl ⟨rfl, by rw [hw]; exact hx, by rw [hw]; rfl⟩)
    | setLeverage accountId leverage => exact .inr (.inr ⟨by rw [hs.1]; rfl, Bool.false_ne_true⟩)
  | call i q r =>
    cases q with
    | api q =>
      have hresp := exchange_api hs
      obtain ⟨⟨x, -, hw⟩, -⟩ := hs
      exact .inl ⟨i, q, r, rfl, hresp, by rw [hw]; rfl⟩
    | db q => exact .inr (.inr ⟨exchange_db hs, Bool.false_ne_true⟩)
    | latestBidAsk _ _ | lastTickAge _ _ | utcNow | newUuid | pollPasses =>
      have hw : c.world = h.world := hs.1
      exact .inr (.inr ⟨by rw [hw], Bool.false_ne_true⟩)

/-- The induction for what holds of the database and the stages. -/
theorem Of.db_invariant {Inv : Db → (Nat → Stage) → Prop} (start : Inv w₀.db fun _ => .idle)
    (query : ∀ now db st i q (a : q.Ok) db', Inv db st → (actors i).MayAsk (st i) q → q.wrote now db a db' →
      Inv db' (Function.update st i ((st i).after q (.ok a))))
    (failed : ∀ db st i q e, Inv db st → (actors i).MayAsk (st i) q →
      Inv db (Function.update st i ((st i).after q (.error e))))
    (leverage : ∀ db st accountId leverage, Inv db st → Inv (setLeverage accountId leverage db) st) :
    ∀ {h : Run ε}, h.Of E w₀ actors → Inv h.world.db (h.stage actors) := by
  intro h hv
  refine History.Valid.invariant (P := fun _ _ _ => True) (J := fun h : Run ε => Inv h.world.db (h.stage actors))
    ?_ (fun h l c hv _ ih hs _ => ?_) hv (History.Steps.of_forall (fun _ _ _ => trivial) h)
  · exact start
  rcases Of.step_cases hv hs with ⟨i, q, a, rfl, hq, hw, -⟩ | ⟨i, q, e, rfl, hq, hw⟩ | ⟨j, l, rfl, hw⟩ | ⟨hw, hst, -⟩
  · rw [stage_db]
    exact query _ _ _ i q a _ ih hq hw
  · rw [stage_db, History.world_step, hw]
    exact failed _ _ i q e ih hq
  · rw [stage_move, History.world_step, hw]
    exact leverage _ _ _ _ ih
  · rw [hst, History.world_step, hw]
    exact ih

end Run

end AutoTrader
