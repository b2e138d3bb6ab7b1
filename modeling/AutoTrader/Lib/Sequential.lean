import AutoTrader.Lib.Prog

/-!
# Programs that run alone

A `Handler` says how a state answers each call and which state follows. `Ends H s x Q` says of a program
`x` that is the only one to change the state: from `s`, whatever the handler answers, it ends with `Q`.
The rules follow the program text, as those of `Meets` do; `EndsE` is for programs that can fail. `trans`
runs a program of one interface in another, and `exec` runs one with the answers of a function.
-/

namespace Lib.Prog

variable {I J : Iface} {α β σ ε : Type}

/-- How a state answers a call, and the state after it. -/
abbrev Handler (I : Iface) (σ : Type) := σ → (c : I.Call) → I.Ret c → σ → Prop

/-- A run of the program from one state to another. -/
def Runs (H : Handler I σ) : Prog I α → σ → α → σ → Prop
  | done a, s, b, s' => b = a ∧ s' = s
  | call c k, s, b, s' => ∃ r s₁, H s c r s₁ ∧ Runs H (k r) s₁ b s'

/-- Started in `s`, the program ends with `Q`. -/
def Ends (H : Handler I σ) (s : σ) : Prog I α → (α → σ → Prop) → Prop
  | done a, Q => Q a s
  | call c k, Q => ∀ r s', H s c r s' → Ends H s' (k r) Q

variable {H : Handler I σ}

theorem Ends.mono {Q R : α → σ → Prop} (h : ∀ a s, Q a s → R a s) :
    ∀ {s : σ} {x : Prog I α}, Ends H s x Q → Ends H s x R
  | _, done _, hx => h _ _ hx
  | _, call _ _, hx => fun r s' hr => (hx r s' hr).mono h

theorem Ends.bind {Q : β → σ → Prop} {f : α → Prog I β} :
    ∀ {s : σ} {x : Prog I α}, Ends H s x (fun a s' => Ends H s' (f a) Q) → Ends H s (x >>= f) Q
  | _, done _, hx => hx
  | _, call _ _, hx => fun r s' hr => (hx r s' hr).bind

theorem ends_iff {Q : α → σ → Prop} :
    ∀ {s : σ} {x : Prog I α}, Ends H s x Q ↔ ∀ a s', Runs H x s a s' → Q a s'
  | s, done a => by
    constructor
    · rintro h b s' ⟨rfl, rfl⟩
      exact h
    · intro h
      exact h a s ⟨rfl, rfl⟩
  | s, call c k => by
    constructor
    · rintro h a s' ⟨r, s₁, hr, hk⟩
      exact ends_iff.mp (h r s₁ hr) a s' hk
    · intro h r s₁ hr
      exact ends_iff.mpr fun a s' hk => h a s' ⟨r, s₁, hr, hk⟩

theorem Ends.perform {c : I.Call} {Q : I.Ret c → σ → Prop} {s : σ} (h : ∀ r s', H s c r s' → Q r s') :
    Ends H s (perform c) Q := h

/-- A handler that answers less. -/
theorem Ends.sub {K : Handler I σ} {Q : α → σ → Prop} (h : ∀ s c r s', K s c r s' → H s c r s') :
    ∀ {s : σ} {x : Prog I α}, Ends H s x Q → Ends K s x Q
  | _, done _, hx => hx
  | _, call _ _, hx => fun r s' hr => (hx r s' (h _ _ r s' hr)).sub h

/-! ## Programs that can fail -/

/-- `Ends` with one condition for a result and one for a failure. -/
def EndsE (H : Handler I σ) (s : σ) (x : ExceptT ε (Prog I) α) (Q : α → σ → Prop) (E : ε → σ → Prop) : Prop :=
  Ends H s x.run fun
    | .ok a, s' => Q a s'
    | .error e, s' => E e s'

variable {Q : α → σ → Prop} {R : β → σ → Prop} {E : ε → σ → Prop} {s : σ}

theorem EndsE.pure {a : α} (h : Q a s) : EndsE H s (pure a : ExceptT ε (Prog I) α) Q E := h

theorem EndsE.throw {e : ε} (h : E e s) : EndsE H s (throw e : ExceptT ε (Prog I) α) Q E := h

theorem EndsE.mono {x : ExceptT ε (Prog I) α} {Q' : α → σ → Prop} {E' : ε → σ → Prop}
    (hx : EndsE H s x Q E) (hQ : ∀ a s', Q a s' → Q' a s') (hE : ∀ e s', E e s' → E' e s') :
    EndsE H s x Q' E' := by
  refine Ends.mono (fun r s' hr => ?_) hx
  cases r with
  | ok a => exact hQ a s' hr
  | error e => exact hE e s' hr

theorem EndsE.bind {x : ExceptT ε (Prog I) α} {f : α → ExceptT ε (Prog I) β}
    (h : EndsE H s x (fun a s' => EndsE H s' (f a) R E) E) : EndsE H s (x >>= f) R E := by
  refine Ends.bind (x := x.run) (Ends.mono (fun r s' hr => ?_) h)
  cases r with
  | ok a => exact hr
  | error e => exact hr

theorem EndsE.lift {x : Prog I α} (h : Ends H s x Q) : EndsE H s (liftM x : ExceptT ε (Prog I) α) Q E := by
  show Ends H s ((Except.ok : α → Except ε α) <$> x) _
  rw [map_eq]
  exact Ends.bind h

theorem EndsE.bindLift {x : Prog I α} {f : α → ExceptT ε (Prog I) β}
    (h : Ends H s x fun a s' => EndsE H s' (f a) R E) :
    EndsE H s ((liftM x : ExceptT ε (Prog I) α) >>= f) R E :=
  EndsE.bind (EndsE.lift h)

/-! ## Programs of another interface -/

/-- The program with each call made by a program of `J`. -/
def trans (f : ∀ c, Prog J (I.Ret c)) : Prog I α → Prog J α
  | done a => done a
  | call c k => f c >>= fun r => trans f (k r)

theorem Ends.trans {K : Handler J σ} {f : ∀ c, Prog J (I.Ret c)} {Q : α → σ → Prop} :
    ∀ {s : σ} {x : Prog I α}, Ends (fun s c r s' => Runs K (f c) s r s') s x Q → Ends K s (x.trans f) Q
  | _, done _, h => h
  | _, call _ _, h => Ends.bind (ends_iff.mpr fun r s' hr => Ends.trans (h r s' hr))

/-- The calls are answered by what answers the programs that make them. -/
theorem Ends.trans_of {K : Handler J σ} {f : ∀ c, Prog J (I.Ret c)} {Q : α → σ → Prop}
    (hf : ∀ s c r s', Runs K (f c) s r s' → H s c r s') {s : σ} {x : Prog I α} (h : Ends H s x Q) :
    Ends K s (x.trans f) Q :=
  Ends.trans (h.sub hf)

/-! ## Execution -/

/-- The run of a program that is answered by a function. -/
def exec (answer : σ → (c : I.Call) → I.Ret c × σ) : Prog I α → σ → α × σ
  | done a, s => (a, s)
  | call c k, s => exec answer (k (answer s c).1) (answer s c).2

theorem runs_exec {answer : σ → (c : I.Call) → I.Ret c × σ} (h : ∀ s c, H s c (answer s c).1 (answer s c).2) :
    ∀ (x : Prog I α) (s : σ), Runs H x s (x.exec answer s).1 (x.exec answer s).2
  | done _, _ => ⟨rfl, rfl⟩
  | call c k, s => ⟨_, _, h s c, runs_exec h (k (answer s c).1) (answer s c).2⟩

/-- What holds of a program that is answered by a function holds of its run. -/
theorem EndsE.exec {answer : σ → (c : I.Call) → I.Ret c × σ} {x : ExceptT ε (Prog I) α}
    (h : EndsE (fun s c r s' => answer s c = (r, s')) s x Q E) :
    (∀ a, (x.run.exec answer s).1 = .ok a → Q a (x.run.exec answer s).2) ∧
      ∀ e, (x.run.exec answer s).1 = .error e → E e (x.run.exec answer s).2 := by
  have hruns := ends_iff.mp h _ _ (runs_exec (fun _ _ => rfl) x.run s)
  constructor
  · intro a ha
    rw [ha] at hruns
    exact hruns
  · intro e he
    rw [he] at hruns
    exact hruns

end Lib.Prog
