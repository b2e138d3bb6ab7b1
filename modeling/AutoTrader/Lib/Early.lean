import AutoTrader.Lib.Fallible

/-!
# Computations that stop early

A computation in `OptionT (Except ε)` fails, stops without an answer, or answers. `Fine P` says that it does not
fail and that its answer, if there is one, satisfies `P`; the rules read it off the steps of the computation, each
as an equivalence (`fine_bind` and the rules for the single steps).
-/

namespace Lib

variable {ε α β : Type}

/-- The computation does not fail, and what it answers with satisfies `P`. -/
def Fine (P : α → Prop) (a : OptionT (Except ε) α) : Prop := ∃ o, a.run = .ok o ∧ ∀ x ∈ o, P x

variable {P : α → Prop}

theorem Fine.mono {Q : α → Prop} {a : OptionT (Except ε) α} (h : Fine P a) (hPQ : ∀ x, P x → Q x) : Fine Q a := by
  obtain ⟨o, ho, hP⟩ := h
  exact ⟨o, ho, fun x hx => hPQ x (hP x hx)⟩

theorem fine_mk_ok {o : Option α} : Fine P (OptionT.mk (.ok o : Except ε (Option α))) ↔ ∀ x ∈ o, P x :=
  ⟨fun ⟨_, ho, h⟩ => Except.ok.inj ho ▸ h, fun h => ⟨o, rfl, h⟩⟩

theorem fine_mk_error {e : ε} : ¬Fine P (OptionT.mk (.error e : Except ε (Option α))) := by
  rintro ⟨o, ho, -⟩
  cases ho

@[simp] theorem fine_pure {x : α} : Fine P (pure x : OptionT (Except ε) α) ↔ P x := by
  refine fine_mk_ok.trans ?_
  simp

@[simp] theorem fine_failure : Fine P (failure : OptionT (Except ε) α) := fine_mk_ok.mpr (by simp)

@[simp] theorem fine_bind {Q : β → Prop} {a : OptionT (Except ε) α} {f : α → OptionT (Except ε) β} :
    Fine Q (a >>= f) ↔ Fine (fun x => Fine Q (f x)) a := by
  show Fine Q (OptionT.mk (a.run >>= _)) ↔ ∃ o, a.run = .ok o ∧ _
  rcases a.run with e | _ | x
  · exact iff_of_false fine_mk_error (by simp)
  · exact iff_of_true fine_failure ⟨none, rfl, by simp⟩
  · show Fine Q (f x) ↔ _
    simp

@[simp] theorem fine_map {Q : β → Prop} {a : OptionT (Except ε) α} {f : α → β} :
    Fine Q (f <$> a) ↔ Fine (fun x => Q (f x)) a := by
  rw [← bind_pure_comp, fine_bind]
  simp

theorem fine_ite {c : Prop} [Decidable c] {a b : OptionT (Except ε) α} :
    Fine P (if c then a else b) ↔ (c → Fine P a) ∧ (¬c → Fine P b) := by
  by_cases h : c <;> simp [h]

end Lib
