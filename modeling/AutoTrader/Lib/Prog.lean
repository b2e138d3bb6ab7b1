import Mathlib.Logic.Function.Basic
import Mathlib.Tactic.Basic

/-!
# Programs that call out

A program of type `Prog I α` is a tree: it is `done` with a result, or it makes a call of the
interface `I` and goes on with the answer. What the surroundings answer is not part of the program,
so a property of a program is one for all answers.

`Meets A p x Q` says so: started in phase `p` of the protocol `A`, the program `x` makes only calls
that `A` allows in the phase they are made in, and whatever the answers are, it ends in a phase and
with a result that satisfy `Q`. The rules `Meets.bind` and `MeetsE.bind` (for programs that can
fail) follow the program text.
-/

namespace Lib

/-- What a program may call, and the type of the answer to each call. -/
structure Iface where
  Call : Type
  Ret : Call → Type

/-- A program over the calls of an interface. -/
inductive Prog (I : Iface) (α : Type) where
  | done (a : α)
  | call (c : I.Call) (k : I.Ret c → Prog I α)

namespace Prog

variable {I : Iface} {α β γ : Type}

/-- One program after another. -/
def bind : Prog I α → (α → Prog I β) → Prog I β
  | done a, f => f a
  | call c k, f => call c fun r => (k r).bind f

instance : Monad (Prog I) where
  pure := done
  bind := bind

/-- The program that makes one call and returns its answer. -/
def perform (c : I.Call) : Prog I (I.Ret c) := call c done

@[simp] theorem pure_eq (a : α) : (pure a : Prog I α) = done a := rfl

@[simp] theorem done_bind (a : α) (f : α → Prog I β) : done a >>= f = f a := rfl

@[simp] theorem call_bind (c : I.Call) (k : I.Ret c → Prog I α) (f : α → Prog I β) :
    call c k >>= f = call c fun r => k r >>= f := rfl

@[simp] theorem perform_bind (c : I.Call) (f : I.Ret c → Prog I β) : perform c >>= f = call c f := rfl

theorem map_eq (f : α → β) : ∀ x : Prog I α, f <$> x = x >>= fun a => done (f a)
  | done _ => rfl
  | call _ _ => rfl

end Prog

/-! ## Answered programs -/

namespace Prog

variable {I : Iface} {α β : Type}

/-- The result of a program whose calls are answered by a function. -/
def eval (answer : ∀ c, I.Ret c) : Prog I α → α
  | done a => a
  | call c k => (k (answer c)).eval answer

@[simp] theorem eval_done (answer : ∀ c, I.Ret c) (a : α) : (done a).eval answer = a := rfl

@[simp] theorem eval_call (answer : ∀ c, I.Ret c) (c : I.Call) (k : I.Ret c → Prog I α) :
    (call c k).eval answer = (k (answer c)).eval answer := rfl

@[simp] theorem eval_bind (answer : ∀ c, I.Ret c) (f : α → Prog I β) :
    ∀ x : Prog I α, (x >>= f).eval answer = (f (x.eval answer)).eval answer
  | done _ => rfl
  | call c k => eval_bind answer f (k (answer c))

end Prog

/-! ## Protocols -/

/-- Which calls a program may make in which phase, and the phase that follows an answer. -/
structure Protocol (I : Iface) (P : Type) where
  allowed : P → I.Call → Prop
  next : P → (c : I.Call) → I.Ret c → P

namespace Prog

variable {I : Iface} {P α β ε : Type} {A : Protocol I P}

/-- `x`, started in phase `p`, keeps to the protocol, and ends with `Q`. -/
def Meets (A : Protocol I P) (p : P) : Prog I α → (P → α → Prop) → Prop
  | done a, Q => Q p a
  | call c k, Q => A.allowed p c ∧ ∀ r, Meets A (A.next p c r) (k r) Q

@[simp] theorem meets_done {p : P} {a : α} {Q : P → α → Prop} : Meets A p (done a) Q ↔ Q p a := Iff.rfl

@[simp] theorem meets_call {p : P} {c : I.Call} {k : I.Ret c → Prog I α} {Q : P → α → Prop} :
    Meets A p (call c k) Q ↔ A.allowed p c ∧ ∀ r, Meets A (A.next p c r) (k r) Q := Iff.rfl

theorem Meets.mono {Q R : P → α → Prop} (h : ∀ p a, Q p a → R p a) :
    ∀ {p : P} {x : Prog I α}, Meets A p x Q → Meets A p x R
  | _, done _, hx => h _ _ hx
  | _, call _ _, hx => ⟨hx.1, fun r => (hx.2 r).mono h⟩

theorem Meets.bind {Q : P → β → Prop} {f : α → Prog I β} :
    ∀ {p : P} {x : Prog I α}, Meets A p x (fun p a => Meets A p (f a) Q) → Meets A p (x >>= f) Q
  | _, done _, hx => hx
  | _, call _ _, hx => ⟨hx.1, fun r => (hx.2 r).bind⟩

/-- What holds of a program whatever it is answered holds of it with the answers of a function. -/
theorem Meets.eval {Q : P → α → Prop} {J : P → Prop} {answer : ∀ c, I.Ret c}
    (h : ∀ p c, J p → J (A.next p c (answer c))) :
    ∀ {p : P} {x : Prog I α}, J p → Meets A p x Q → ∃ p, J p ∧ Q p (x.eval answer)
  | p, done _, hp, hx => ⟨p, hp, hx⟩
  | p, call c k, hp, hx => Meets.eval (x := k (answer c)) h (h p c hp) (hx.2 (answer c))

/-- A program that keeps to one protocol keeps to another that allows as much, in related phases. -/
theorem Meets.sim {P' : Type} {B : Protocol I P'} {R : P → P' → Prop} {Q : P → α → Prop}
    (h : ∀ p q c, R p q → A.allowed p c → B.allowed q c ∧ ∀ r, R (A.next p c r) (B.next q c r)) :
    ∀ {p : P} {q : P'} {x : Prog I α}, R p q → Meets A p x Q → Meets B q x fun q a => ∃ p, R p q ∧ Q p a
  | p, _, done _, hr, hx => ⟨p, hr, hx⟩
  | p, q, call c _, hr, hx => ⟨(h p q c hr hx.1).1, fun r => ((hx.2 r).sim h ((h p q c hr hx.1).2 r))⟩

/-- `x` makes only calls that satisfy `ok`. -/
def Only (ok : I.Call → Prop) : Prog I α → Prop
  | done _ => True
  | call c k => ok c ∧ ∀ r, Only ok (k r)

theorem Only.bind {ok : I.Call → Prop} {f : α → Prog I β} (hf : ∀ a, Only ok (f a)) :
    ∀ {x : Prog I α}, Only ok x → Only ok (x >>= f)
  | done a, _ => hf a
  | call _ _, hx => ⟨hx.1, fun r => (hx.2 r).bind hf⟩

theorem Only.mono {ok ok' : I.Call → Prop} (h : ∀ c, ok c → ok' c) : ∀ {x : Prog I α}, Only ok x → Only ok' x
  | done _, _ => trivial
  | call _ _, hx => ⟨h _ hx.1, fun r => (hx.2 r).mono h⟩

theorem Only.perform {ok : I.Call → Prop} {c : I.Call} (hc : ok c) : Only ok (perform c) :=
  ⟨hc, fun _ => trivial⟩

/-- A program whose calls are all allowed in `p` and leave `p` as it is. -/
theorem Only.meets {ok : I.Call → Prop} {p : P} (h : ∀ c, ok c → A.allowed p c ∧ ∀ r, A.next p c r = p) :
    ∀ {x : Prog I α}, Only ok x → Meets A p x fun q _ => q = p
  | done _, _ => rfl
  | call c k, hx => ⟨(h c hx.1).1, fun r => by rw [(h c hx.1).2 r]; exact (hx.2 r).meets h⟩

/-- A property of the phase that all calls of a program keep. -/
theorem Only.invariant {ok : I.Call → Prop} {J : P → Prop}
    (h : ∀ p c, J p → ok c → A.allowed p c ∧ ∀ r, J (A.next p c r)) :
    ∀ {p : P} {x : Prog I α}, Only ok x → J p → Meets A p x fun q _ => J q
  | _, done _, _, hp => hp
  | p, call c _, hx, hp => ⟨(h p c hp hx.1).1, fun r => (hx.2 r).invariant h ((h p c hp hx.1).2 r)⟩

/-! ## Programs that can fail -/

/-- The failure a program has ended with. -/
def failed? : Prog I (Except ε α) → Option ε
  | done (.error e) => some e
  | _ => none

theorem failed?_eq_some {x : Prog I (Except ε α)} {e : ε} : x.failed? = some e ↔ x = done (.error e) := by
  constructor
  · intro h
    rcases x with (e' | a) | _
    · cases h; rfl
    · cases h
    · cases h
  · rintro rfl; rfl

/-- The result of `x` as a value: a failure of `x` is handed to the program that goes on. -/
def attempt (x : ExceptT ε (Prog I) α) : ExceptT ε (Prog I) (Except ε α) :=
  ExceptT.mk (x.run >>= fun r => done (.ok r))

/-- A result that no call is made for. -/
def result (x : Except ε α) : ExceptT ε (Prog I) α := ExceptT.mk (done x)

/-- `x` with its failure changed by `f`. -/
def mapError {ε' : Type} (f : ε → ε') (x : ExceptT ε (Prog I) α) : ExceptT ε' (Prog I) α :=
  ExceptT.mk (x.run >>= fun r => done (r.mapError f))

/-- `Meets` for a program that ends with a result satisfying `Q` or a failure satisfying `E`. -/
def MeetsE (A : Protocol I P) (p : P) (x : ExceptT ε (Prog I) α) (Q : P → α → Prop)
    (E : P → ε → Prop) : Prop :=
  Meets A p x.run fun p r => match r with
    | .ok a => Q p a
    | .error e => E p e

section MeetsE

variable {p : P} {Q : P → α → Prop} {R : P → β → Prop} {E : P → ε → Prop}

theorem MeetsE.pure {a : α} (h : Q p a) : MeetsE A p (pure a : ExceptT ε (Prog I) α) Q E := h

theorem MeetsE.throw {e : ε} (h : E p e) : MeetsE A p (throw e : ExceptT ε (Prog I) α) Q E := h

theorem MeetsE.mono {x : ExceptT ε (Prog I) α} {Q' : P → α → Prop} {E' : P → ε → Prop}
    (h : MeetsE A p x Q E) (hQ : ∀ p a, Q p a → Q' p a) (hE : ∀ p e, E p e → E' p e) :
    MeetsE A p x Q' E' := by
  refine Meets.mono (fun p r hr => ?_) h
  cases r with
  | ok a => exact hQ p a hr
  | error e => exact hE p e hr

theorem MeetsE.run {x : ExceptT ε (Prog I) α} {S : P → Except ε α → Prop}
    (h : MeetsE A p x (fun p a => S p (.ok a)) fun p e => S p (.error e)) : Meets A p x.run S := by
  refine Meets.mono (fun p r hr => ?_) h
  cases r with
  | ok a => exact hr
  | error e => exact hr

theorem MeetsE.bind {x : ExceptT ε (Prog I) α} {f : α → ExceptT ε (Prog I) β}
    (h : MeetsE A p x (fun p a => MeetsE A p (f a) R E) E) : MeetsE A p (x >>= f) R E := by
  refine Meets.bind (Meets.mono (fun p r hr => ?_) h)
  cases r with
  | ok a => exact hr
  | error e => exact hr

theorem MeetsE.result {x : Except ε α} (hQ : ∀ a, x = .ok a → Q p a) (hE : ∀ e, x = .error e → E p e) :
    MeetsE A p (result x) Q E := by
  cases x with
  | ok a => exact hQ a rfl
  | error e => exact hE e rfl

theorem MeetsE.mapError {ε' : Type} {f : ε → ε'} {x : ExceptT ε (Prog I) α} {E : P → ε' → Prop}
    (h : MeetsE A p x Q fun p e => E p (f e)) : MeetsE A p (mapError f x) Q E := by
  refine Meets.bind (Meets.mono (fun p r hr => ?_) h)
  cases r with
  | ok a => exact hr
  | error e => exact hr

theorem MeetsE.attempt {x : ExceptT ε (Prog I) α} {R : P → Except ε α → Prop}
    (h : MeetsE A p x (fun p a => R p (.ok a)) (fun p e => R p (.error e))) :
    MeetsE A p (attempt x) R E := by
  refine Meets.bind (Meets.mono (fun p r hr => ?_) h)
  cases r with
  | ok a => exact hr
  | error e => exact hr

/-- A part that cannot fail. -/
theorem MeetsE.bindLift {x : Prog I α} {f : α → ExceptT ε (Prog I) β}
    (h : Meets A p x fun p a => MeetsE A p (f a) R E) :
    MeetsE A p ((liftM x : ExceptT ε (Prog I) α) >>= f) R E := by
  refine MeetsE.bind (Meets.bind (Meets.mono (fun _ _ hr => ?_) h))
  exact hr

theorem MeetsE.map {x : ExceptT ε (Prog I) α} {f : α → β} (h : MeetsE A p x (fun p a => R p (f a)) E) :
    MeetsE A p (f <$> x) R E := by
  refine Meets.bind (Meets.mono (fun p r hr => ?_) h)
  cases r with
  | ok a => exact hr
  | error e => exact hr

theorem MeetsE.bindLift_of_only {ok : I.Call → Prop} {x : Prog I α} {f : α → ExceptT ε (Prog I) β}
    (hx : Only ok x) (h : ∀ c, ok c → A.allowed p c ∧ ∀ r, A.next p c r = p) (hf : ∀ a, MeetsE A p (f a) R E) :
    MeetsE A p ((liftM x : ExceptT ε (Prog I) α) >>= f) R E :=
  MeetsE.bindLift (Meets.mono (fun q a hq => by rw [hq]; exact hf a) (hx.meets h))

/-- A part of the program that stays in phase `p` does not matter to the protocol. -/
theorem MeetsE.of_only {ok : I.Call → Prop} {x : ExceptT ε (Prog I) α} (hx : Only ok x.run)
    (h : ∀ c, ok c → A.allowed p c ∧ ∀ r, A.next p c r = p) (hQ : ∀ a, Q p a) (hE : ∀ e, E p e) :
    MeetsE A p x Q E := by
  refine Meets.mono (fun q r hr => ?_) (hx.meets h)
  subst hr
  cases r with
  | ok a => exact hQ a
  | error e => exact hE e

end MeetsE

section OnlyE

variable {ok : I.Call → Prop}

theorem OnlyE.pure (a : α) : Only ok (pure a : ExceptT ε (Prog I) α).run := trivial

theorem OnlyE.bind {x : ExceptT ε (Prog I) α} {f : α → ExceptT ε (Prog I) β} (hx : Only ok x.run)
    (hf : ∀ a, Only ok (f a).run) : Only ok (x >>= f).run := by
  refine Only.bind (fun r => ?_) hx
  cases r with
  | ok a => exact hf a
  | error e => trivial

theorem OnlyE.attempt {x : ExceptT ε (Prog I) α} (hx : Only ok x.run) : Only ok (attempt x).run := by
  refine Only.bind (fun r => ?_) hx
  trivial

theorem OnlyE.bindLift {x : Prog I α} {f : α → ExceptT ε (Prog I) β} (hx : Only ok x)
    (hf : ∀ a, Only ok (f a).run) : Only ok ((liftM x : ExceptT ε (Prog I) α) >>= f).run := by
  refine OnlyE.bind (Only.bind (fun r => ?_) hx) hf
  trivial

end OnlyE

end Prog

end Lib
