import Mathlib.Data.List.Basic
import Mathlib.Data.List.Induction
import Mathlib.Tactic.Basic

/-!
# Machines with a silent path

A machine answers every event it steps over. It can also be shown an event silently, by a second update
that gives no answer: to catch up with what it has missed. `outputs_eq_iff` compares the answers from two
states event by event, and `outputs_warmed` says when catching up is the same as having been there.
-/

namespace Lib

variable {σ ε ο : Type}

/-- A machine with a step that answers and a warmup that does not. -/
structure Machine (σ ε ο : Type) where
  step : ε → σ → ο × σ
  warm : ε → σ → σ

namespace Machine

variable (m : Machine σ ε ο)

/-- The answers to a list of events. -/
def outputs : σ → List ε → List ο
  | _, [] => []
  | s, e :: es => (m.step e s).1 :: outputs (m.step e s).2 es

/-- The state after stepping over a list of events. -/
def after (s : σ) (es : List ε) : σ := es.foldl (fun s e => (m.step e s).2) s

/-- The state after being shown a list of events silently. -/
def warmed (s : σ) (es : List ε) : σ := es.foldl (fun s e => m.warm e s) s

@[simp] theorem after_nil (s : σ) : m.after s [] = s := rfl

@[simp] theorem after_cons (s : σ) (e : ε) (es : List ε) :
    m.after s (e :: es) = m.after (m.step e s).2 es := rfl

@[simp] theorem after_concat (s : σ) (es : List ε) (e : ε) :
    m.after s (es ++ [e]) = (m.step e (m.after s es)).2 := by
  simp [after]

@[simp] theorem warmed_nil (s : σ) : m.warmed s [] = s := rfl

@[simp] theorem warmed_concat (s : σ) (es : List ε) (e : ε) :
    m.warmed s (es ++ [e]) = m.warm e (m.warmed s es) := by
  simp [warmed]

theorem after_append (s : σ) (es fs : List ε) : m.after s (es ++ fs) = m.after (m.after s es) fs := by
  simp [after]

theorem length_outputs (s : σ) (es : List ε) : (m.outputs s es).length = es.length := by
  induction es generalizing s with
  | nil => rfl
  | cons e es ih => simp [outputs, ih]

theorem outputs_append (s : σ) (es fs : List ε) :
    m.outputs s (es ++ fs) = m.outputs s es ++ m.outputs (m.after s es) fs := by
  induction es generalizing s with
  | nil => rfl
  | cons e es ih => simp [outputs, ih]

/-- The answers to a suffix are the answers from the state after the prefix. -/
theorem drop_outputs_append (s : σ) (es fs : List ε) :
    (m.outputs s (es ++ fs)).drop es.length = m.outputs (m.after s es) fs := by
  rw [outputs_append, List.drop_left' (m.length_outputs s es)]

/-- Two states give the same answers when every event finds them giving the same one. -/
theorem outputs_eq_iff (s t : σ) (es : List ε) :
    m.outputs s es = m.outputs t es ↔ ∀ i, ∀ hi : i < es.length,
      (m.step es[i] (m.after s (es.take i))).1 = (m.step es[i] (m.after t (es.take i))).1 := by
  induction es generalizing s t with
  | nil => simp [outputs]
  | cons e es ih =>
    simp only [outputs, List.cons.injEq, ih]
    constructor
    · rintro ⟨h0, hs⟩ i hi
      cases i with
      | zero => exact h0
      | succ i => exact hs i (by simpa using hi)
    · intro h
      exact ⟨h 0 (by simp), fun i hi => h (i + 1) (by simpa using hi)⟩

/-- The answers are all such and such when every event finds a state that gives such an answer. -/
theorem forall_outputs_iff {P : ο → Prop} (s : σ) (es : List ε) :
    (∀ o ∈ m.outputs s es, P o) ↔ ∀ before e, before ++ [e] <+: es → P (m.step e (m.after s before)).1 := by
  induction es using List.reverseRecOn with
  | nil => simp [outputs]
  | append_singleton es e ih =>
    simp only [outputs_append, outputs, List.mem_append, List.mem_singleton, or_imp, forall_and, forall_eq, ih,
      List.prefix_concat_iff, List.append_singleton_inj]
    constructor
    · rintro ⟨hbefore, hlast⟩
      refine ⟨fun before d h => ?_, hbefore⟩
      obtain ⟨rfl, rfl⟩ := h
      exact hlast
    · exact fun ⟨hlast, hbefore⟩ => ⟨hbefore, hlast es e ⟨rfl, rfl⟩⟩

theorem warmed_eq_after (h : ∀ e s, m.warm e s = (m.step e s).2) (s : σ) (es : List ε) :
    m.warmed s es = m.after s es := by
  simp [warmed, after, h]

/-- Where the silent path leaves the state that the step leaves, catching up is as good as having been
there. -/
theorem outputs_warmed (h : ∀ e s, m.warm e s = (m.step e s).2) (s : σ) (es fs : List ε) :
    m.outputs (m.warmed s es) fs = (m.outputs s (es ++ fs)).drop es.length := by
  rw [m.warmed_eq_after h, drop_outputs_append]

/-- A machine that does the same over other states gives the same answers. -/
theorem outputs_of_map {τ : Type} (n : Machine τ ε ο) (f : σ → τ)
    (h : ∀ e s, n.step e (f s) = ((m.step e s).1, f (m.step e s).2)) (s : σ) (es : List ε) :
    n.outputs (f s) es = m.outputs s es := by
  induction es generalizing s with
  | nil => rfl
  | cons e es ih => rw [outputs, outputs, h, ih]

end Machine

end Lib
