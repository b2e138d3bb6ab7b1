import Mathlib.Data.List.Basic

/-!
# Loops that write values

`loopValues` is a loop over a list with an accumulator that writes a value at each element. The first values are
those of the loop over the first elements (`loopValues_take`), the last value is read off the state after the
whole list (`loopValues_concat`), and a loop depends on its body only at the elements (`loopValues_congr`).
-/

namespace Lib

variable {α σ ε ω : Type}

/-- The values of a loop, one for each turn. -/
def loopValues (step : σ → ε → σ) (value : σ → ε → ω) : σ → List ε → List ω
  | _, [] => []
  | s, e :: es => value (step s e) e :: loopValues step value (step s e) es

variable {step step' : σ → ε → σ} {value value' : σ → ε → ω}

theorem length_loopValues (s : σ) (es : List ε) : (loopValues step value s es).length = es.length := by
  induction es generalizing s with
  | nil => rfl
  | cons e es ih => simp only [loopValues, List.length_cons, ih]

theorem loopValues_append (s : σ) (es fs : List ε) :
    loopValues step value s (es ++ fs) =
      loopValues step value s es ++ loopValues step value (es.foldl step s) fs := by
  induction es generalizing s with
  | nil => rfl
  | cons e es ih => simp only [List.cons_append, loopValues, ih, List.foldl_cons]

/-- The last value is read off the last state. -/
theorem loopValues_concat (s : σ) (es : List ε) (e : ε) :
    loopValues step value s (es ++ [e]) =
      loopValues step value s es ++ [value ((es ++ [e]).foldl step s) e] := by
  rw [loopValues_append, List.foldl_append]
  rfl

theorem loopValues_take (s : σ) (es : List ε) (m : Nat) :
    (loopValues step value s es).take m = loopValues step value s (es.take m) := by
  induction es generalizing s m with
  | nil => simp [loopValues]
  | cons e es ih =>
    rcases m with _ | m
    · rfl
    · simp only [loopValues, List.take_succ_cons, ih]

theorem scanl_congr {s : σ} {es : List ε} (h : ∀ e ∈ es, ∀ s, step s e = step' s e) :
    es.scanl step s = es.scanl step' s := by
  induction es generalizing s with
  | nil => rfl
  | cons e es ih =>
    rw [List.scanl_cons, List.scanl_cons, h e List.mem_cons_self s]
    rw [ih fun e he => h e (List.mem_cons_of_mem _ he)]

/-- The body matters only at the elements, and in states with an invariant of the loop. -/
theorem loopValues_congr_of {I : σ → Prop} {s : σ} {es : List ε} (hI : I s)
    (h : ∀ e ∈ es, ∀ s, I s → step s e = step' s e ∧ I (step' s e))
    (hv : ∀ e ∈ es, ∀ s, I s → value s e = value' s e) :
    loopValues step value s es = loopValues step' value' s es := by
  induction es generalizing s with
  | nil => rfl
  | cons e es ih =>
    obtain ⟨hstep, hnext⟩ := h e List.mem_cons_self s hI
    rw [loopValues, loopValues, hstep, hv e List.mem_cons_self _ hnext]
    congr 1
    exact ih hnext (fun e he => h e (List.mem_cons_of_mem _ he)) fun e he => hv e (List.mem_cons_of_mem _ he)

theorem loopValues_congr {s : σ} {es : List ε} (h : ∀ e ∈ es, ∀ s, step s e = step' s e)
    (hv : ∀ e ∈ es, ∀ s, value s e = value' s e) :
    loopValues step value s es = loopValues step' value' s es :=
  @loopValues_congr_of _ _ _ step step' value value' (fun _ => True) s es trivial
    (fun e he s _ => ⟨h e he s, trivial⟩) fun e he s _ => hv e he s

/-- A loop that writes the same value at every element. -/
theorem loopValues_eq_replicate {s : σ} {es : List ε} {v : ω} (h : ∀ e ∈ es, ∀ s, value s e = v) :
    loopValues step value s es = List.replicate es.length v := by
  induction es generalizing s with
  | nil => rfl
  | cons e es ih =>
    rw [loopValues, h e List.mem_cons_self, ih fun e he => h e (List.mem_cons_of_mem _ he), List.length_cons,
      List.replicate_succ]

/-! ## Elements of a prefix -/

variable [Inhabited α]

theorem getElem!_take {xs : List α} {i m : Nat} (h : i < m) : (xs.take m)[i]! = xs[i]! := by
  rw [List.getElem!_eq_getElem?_getD, List.getElem!_eq_getElem?_getD, List.getElem?_take_of_lt h]

end Lib
