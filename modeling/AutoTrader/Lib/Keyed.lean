import AutoTrader.Lib.Machine
import Mathlib.Data.List.Basic
import Mathlib.Logic.Function.Basic

/-!
# One machine for each key

`m.keyed key` keeps a state of `m` for every key, and an event is a step of the one with its key. What the events of a
key are answered is what `m` answers to these events alone (`keyed_trace`).
-/

namespace Lib

namespace Machine

variable {σ τ ε ο κ : Type}

/-- Two machines whose steps agree along a relation of their states give the same answers. -/
theorem outputs_eq_of_sim {m : Machine σ ε ο} {m' : Machine τ ε ο} {R : σ → τ → Prop}
    (hstep : ∀ e s t, R s t → (m.step e s).1 = (m'.step e t).1 ∧ R (m.step e s).2 (m'.step e t).2) (es : List ε) :
    ∀ {s t}, R s t → m.outputs s es = m'.outputs t es := by
  induction es with
  | nil => exact fun _ => rfl
  | cons e es ih =>
    intro s t h
    obtain ⟨hanswer, hnext⟩ := hstep e s t h
    rw [outputs, outputs, hanswer, ih hnext]

/-- The events of a list each with its answer. -/
def trace (m : Machine σ ε ο) (s : σ) (es : List ε) : List (ε × ο) := es.zip (m.outputs s es)

@[simp] theorem trace_cons (m : Machine σ ε ο) (s : σ) (e : ε) (es : List ε) :
    m.trace s (e :: es) = (e, (m.step e s).1) :: m.trace (m.step e s).2 es := rfl

theorem trace_append (m : Machine σ ε ο) (s : σ) (es fs : List ε) :
    m.trace s (es ++ fs) = m.trace s es ++ m.trace (m.after s es) fs := by
  unfold trace
  rw [outputs_append, List.zip_append (m.length_outputs s es).symm]

variable [DecidableEq κ]

/-- The events of each key go to a machine of their own. -/
def keyed (key : ε → κ) (m : Machine σ ε ο) : Machine (κ → σ) ε ο where
  step e s := ((m.step e (s (key e))).1, Function.update s (key e) (m.step e (s (key e))).2)
  warm e s := Function.update s (key e) (m.warm e (s (key e)))

theorem keyed_trace (m : Machine σ ε ο) (key : ε → κ) (k : κ) (es : List ε) : ∀ s : κ → σ,
    ((m.keyed key).trace s es).filter (fun a => key a.1 = k) = m.trace (s k) (es.filter fun e => key e = k) := by
  induction es with
  | nil => exact fun _ => rfl
  | cons e es ih =>
    intro s
    by_cases hk : key e = k
    · rw [trace_cons, List.filter_cons_of_pos (by simpa using hk), List.filter_cons_of_pos (by simpa using hk), ih,
        trace_cons]
      show (e, (m.step e (s (key e))).1) :: m.trace (Function.update s (key e) (m.step e (s (key e))).2 k) _ = _
      rw [hk, Function.update_self]
    · rw [trace_cons, List.filter_cons_of_neg (by simpa using hk), List.filter_cons_of_neg (by simpa using hk), ih]
      show m.trace (Function.update s (key e) (m.step e (s (key e))).2 k) _ = _
      rw [Function.update_of_ne fun heq => hk heq.symm]

end Machine

end Lib
