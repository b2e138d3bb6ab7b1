import AutoTrader.Lib.Prog
import Mathlib.Logic.Function.Basic

/-!
# Runs of any number of threads over one world

A `Sys` says how the world answers a call of a thread and how it moves by itself. A configuration is
a world and one program for each thread number; a step is a call of one thread, answered by the
world, or a move of the world. A `History` is a run with every configuration it went through, and
what is said of a run is said by recursion over it:

* `History.Valid S c`: every step is one of `S`, and the run starts in `c`;
* `History.Always Q`: every configuration satisfies `Q`;
* `History.Steps P`: every step satisfies `P`, which may look at the whole run before it;
* `History.phases A p₀`: the phase of the protocol `A` each thread has reached.

`Valid.meets` carries `Prog.Meets` of the initial programs through a run, so that an invariant of a
run is one of the phases and the world (`Valid.invariant`). `play` makes a run from a list of inputs.
-/

namespace Lib

variable {I : Iface} {σ μ α P γ : Type}

/-- How the world answers a call of thread `i`, and how it moves without one. -/
structure Sys (I : Iface) (σ μ : Type) where
  respond : Nat → σ → (c : I.Call) → I.Ret c → σ → Prop
  move : σ → μ → σ → Prop

/-- The world with the rest of each thread's program. -/
structure Config (I : Iface) (σ α : Type) where
  world : σ
  thread : Nat → Prog I α

/-- What a step is: a call of a thread, or a move of the world. -/
inductive Label (I : Iface) (μ : Type) where
  | call (i : Nat) (c : I.Call) (r : I.Ret c)
  | move (m : μ)

/-- One step: a thread makes the call it is at and goes on with the answer, or the world moves. -/
def Step (S : Sys I σ μ) (c : Config I σ α) : Label I μ → Config I σ α → Prop
  | .call i q r, c' => S.respond i c.world q r c'.world ∧
      ∃ k, c.thread i = .call q k ∧ c'.thread = Function.update c.thread i (k r)
  | .move m, c' => S.move c.world m c'.world ∧ c'.thread = c.thread

/-- A run, with every configuration it went through. -/
inductive History (I : Iface) (σ μ α : Type) where
  | start (c : Config I σ α)
  | step (h : History I σ μ α) (l : Label I μ) (c : Config I σ α)

namespace History

/-- The configuration that a history ends in. -/
def last : History I σ μ α → Config I σ α
  | start c => c
  | step _ _ c => c

@[simp] theorem last_start (c : Config I σ α) : (start c : History I σ μ α).last = c := rfl

@[simp] theorem last_step (h : History I σ μ α) (l : Label I μ) (c : Config I σ α) : (step h l c).last = c := rfl

/-- The world at the end of the run. -/
def world (h : History I σ μ α) : σ := h.last.world

@[simp] theorem world_start (c : Config I σ α) : (start c : History I σ μ α).world = c.world := rfl

@[simp] theorem world_step (h : History I σ μ α) (l : Label I μ) (c : Config I σ α) :
    (step h l c).world = c.world := rfl

/-- A history of steps from `c₀`. -/
def Valid (S : Sys I σ μ) (c₀ : Config I σ α) : History I σ μ α → Prop
  | start c => c = c₀
  | step h l c => Valid S c₀ h ∧ Step S h.last l c

/-- `Q` holds in every configuration. -/
def Always (Q : Config I σ α → Prop) : History I σ μ α → Prop
  | start c => Q c
  | step h _ c => Always Q h ∧ Q c

/-- `P` holds of every step. -/
def Steps (P : History I σ μ α → Label I μ → Config I σ α → Prop) : History I σ μ α → Prop
  | start _ => True
  | step h l c => Steps P h ∧ P h l c

/-- Whether `P` holds of every step can be decided. -/
def decidableSteps {P : History I σ μ α → Label I μ → Config I σ α → Prop} (hP : ∀ h l c, Decidable (P h l c)) :
    ∀ h : History I σ μ α, Decidable (h.Steps P)
  | start _ => .isTrue trivial
  | step h l c =>
    have := decidableSteps hP h
    have := hP h l c
    inferInstanceAs (Decidable (_ ∧ _))

instance {P : History I σ μ α → Label I μ → Config I σ α → Prop} [hP : ∀ h l c, Decidable (P h l c)]
    (h : History I σ μ α) : Decidable (h.Steps P) :=
  decidableSteps hP h

/-- A value kept along the run: `g` at its start, changed by `f` at every step. -/
def ghost (f : γ → Config I σ α → Label I μ → Config I σ α → γ) (g : γ) : History I σ μ α → γ
  | start _ => g
  | step h l c => f (ghost f g h) h.last l c

/-- The phase each thread has reached, from its calls and their answers. -/
def phases (A : Protocol I P) (p₀ : Nat → P) : History I σ μ α → Nat → P
  | start _ => p₀
  | step h (.call i c r) _ => Function.update (phases A p₀ h) i (A.next (phases A p₀ h i) c r)
  | step h (.move _) _ => phases A p₀ h

section

variable {A : Protocol I P} {p₀ : Nat → P}

theorem phases_call (h : History I σ μ α) (i : Nat) (c : I.Call) (r : I.Ret c) (c' : Config I σ α) :
    (step h (.call i c r) c').phases A p₀ i = A.next (h.phases A p₀ i) c r :=
  Function.update_self ..

theorem phases_call_ne (h : History I σ μ α) {i j : Nat} (c : I.Call) (r : I.Ret c) (c' : Config I σ α)
    (hij : j ≠ i) : (step h (.call i c r) c').phases A p₀ j = h.phases A p₀ j :=
  Function.update_of_ne hij ..

end

theorem Always.last {Q : Config I σ α → Prop} : ∀ {h : History I σ μ α}, h.Always Q → Q h.last
  | .start _, hq => hq
  | .step _ _ _, hq => hq.2

theorem Steps.mono {P R : History I σ μ α → Label I μ → Config I σ α → Prop}
    (hPR : ∀ h l c, P h l c → R h l c) : ∀ {h : History I σ μ α}, h.Steps P → h.Steps R
  | .start _, _ => trivial
  | .step _ _ _, hp => ⟨hp.1.mono hPR, hPR _ _ _ hp.2⟩

theorem Steps.mp {P R : History I σ μ α → Label I μ → Config I σ α → Prop} :
    ∀ {h : History I σ μ α}, (h.Steps fun h l c => P h l c → R h l c) → h.Steps P → h.Steps R
  | .start _, _, _ => trivial
  | .step _ _ _, hi, hp => ⟨hi.1.mp hp.1, hi.2 hp.2⟩

theorem Steps.of_forall {P : History I σ μ α → Label I μ → Config I σ α → Prop} (hP : ∀ h l c, P h l c) :
    ∀ h : History I σ μ α, h.Steps P
  | .start _ => trivial
  | .step h _ _ => ⟨of_forall hP h, hP _ _ _⟩

variable {S : Sys I σ μ} {c₀ : Config I σ α}

theorem Valid.steps : ∀ {h : History I σ μ α}, h.Valid S c₀ → h.Steps fun before l c => Step S before.last l c
  | .start _, _ => trivial
  | .step _ _ _, hv => ⟨hv.1.steps, hv.2⟩

/-- The induction of every invariant of a run whose steps all satisfy `P`. -/
theorem Valid.invariant {P : History I σ μ α → Label I μ → Config I σ α → Prop}
    {J : History I σ μ α → Prop} (start : J (.start c₀))
    (step : ∀ h l c, h.Valid S c₀ → h.Steps P → J h → Step S h.last l c → P h l c → J (.step h l c)) :
    ∀ {h : History I σ μ α}, h.Valid S c₀ → h.Steps P → J h
  | .start c, hv, _ => by
    have hc : c = c₀ := hv
    rw [hc]; exact start
  | .step _ _ _, hv, hp => step _ _ _ hv.1 hp.1 (hv.1.invariant start step hp.1) hv.2 hp.2

/-- A thread that starts with a protocol keeps to it, and when it has ended it did so with `Q`. -/
theorem Valid.meets {A : Protocol I P} {p₀ : Nat → P} {Q : P → α → Prop} {i : Nat}
    (h₀ : Prog.Meets A (p₀ i) (c₀.thread i) Q) :
    ∀ {h : History I σ μ α}, h.Valid S c₀ → Prog.Meets A (h.phases A p₀ i) (h.last.thread i) Q
  | .start c, hv => by
    have hc : c = c₀ := hv
    rw [hc]; exact h₀
  | .step h (.call j q r) c, hv => by
    obtain ⟨hv, -, k, hk, hth⟩ := hv
    simp only [phases, last_step, hth]
    by_cases hij : i = j
    · subst hij
      have ih := Valid.meets h₀ hv
      rw [hk] at ih
      simpa only [Function.update_self] using ih.2 r
    · simpa only [Function.update_of_ne hij] using Valid.meets h₀ hv
  | .step h (.move m) c, hv => by
    obtain ⟨hv, -, hth⟩ := hv
    simpa only [phases, last_step, hth] using Valid.meets h₀ hv

/-- A call is made only in a phase that allows it. -/
theorem Valid.allowed {A : Protocol I P} {p₀ : Nat → P} {Q : P → α → Prop} {i : Nat}
    (h₀ : Prog.Meets A (p₀ i) (c₀.thread i) Q) {h : History I σ μ α} (hv : h.Valid S c₀)
    {q : I.Call} {r : I.Ret q} {c : Config I σ α} (hs : Step S h.last (.call i q r) c) :
    A.allowed (h.phases A p₀ i) q := by
  obtain ⟨-, k, hk, -⟩ := hs
  have := hv.meets h₀
  rw [hk] at this
  exact this.1

end History

/-! ## Playing a run -/

/-- What drives a run: the answer to the call that thread `i` is at, or a move, with the world after it. -/
inductive Input (I : Iface) (σ μ : Type) where
  | call (i : Nat) (answer : σ → (c : I.Call) → Option (I.Ret c × σ))
  | move (m : μ) (f : σ → Option σ)

/-- The input only does what `S` can do. -/
def Input.Sound (S : Sys I σ μ) : Input I σ μ → Prop
  | call i answer => ∀ w c r w', answer w c = some (r, w') → S.respond i w c r w'
  | move m f => ∀ w w', f w = some w' → S.move w m w'

/-- The run with one more step; an input that does not fit changes nothing. -/
def History.feed (h : History I σ μ α) : Input I σ μ → History I σ μ α
  | .call i answer =>
    match h.last.thread i with
    | .done _ => h
    | .call c k =>
      match answer h.world c with
      | some (r, w) => .step h (.call i c r) ⟨w, Function.update h.last.thread i (k r)⟩
      | none => h
  | .move m f =>
    match f h.world with
    | some w => .step h (.move m) ⟨w, h.last.thread⟩
    | none => h

/-- The history of the inputs. -/
def play (c : Config I σ α) (inputs : List (Input I σ μ)) : History I σ μ α := inputs.foldl History.feed (.start c)

theorem History.Valid.feed {S : Sys I σ μ} {c₀ : Config I σ α} {h : History I σ μ α} (hv : h.Valid S c₀)
    {x : Input I σ μ} (hx : x.Sound S) : (h.feed x).Valid S c₀ := by
  cases x with
  | call i answer =>
    simp only [History.feed]
    split
    · exact hv
    · rename_i c k hk
      split
      · rename_i r w ha
        exact ⟨hv, hx _ _ _ _ ha, k, hk, rfl⟩
      · exact hv
  | move m f =>
    simp only [History.feed]
    split
    · rename_i w hw
      exact ⟨hv, hx _ _ hw, rfl⟩
    · exact hv

theorem play_valid {S : Sys I σ μ} (c : Config I σ α) (inputs : List (Input I σ μ)) (h : ∀ x ∈ inputs, x.Sound S) :
    (play c inputs).Valid S c := by
  have valid_foldl : ∀ (inputs : List (Input I σ μ)) (h : History I σ μ α), h.Valid S c →
      (∀ x ∈ inputs, x.Sound S) → (inputs.foldl History.feed h).Valid S c := by
    intro inputs
    induction inputs with
    | nil => exact fun _ hv _ => hv
    | cons x xs ih =>
      intro h hv hs
      exact ih _ (hv.feed (hs x List.mem_cons_self)) fun y hy => hs y (List.mem_cons_of_mem x hy)
  exact valid_foldl inputs _ rfl h

end Lib
