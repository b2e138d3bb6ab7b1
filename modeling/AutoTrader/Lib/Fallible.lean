import Mathlib.Data.List.Forall2

/-!
# Computations that can fail

When an `Except` succeeds: of two in a row both do (`bind_eq_ok`), and over a list every one does
(`mapM_eq_ok`, `forM_eq_ok`). And how it can fail: with the errors that its parts have (`FailsOnly`).
-/

namespace Lib

open List (Forall₂)

variable {ε α β : Type}

/-- An early return of an error. -/
def refuseIf (c : Prop) [Decidable c] (e : ε) : Except ε Unit := if c then .error e else .ok ()

theorem refuseIf_eq_ok {c : Prop} [Decidable c] {e : ε} {u : Unit} : refuseIf c e = .ok u ↔ ¬c := by
  unfold refuseIf
  split <;> simp_all

theorem bind_eq_ok {x : Except ε α} {f : α → Except ε β} {b : β} :
    (x >>= f) = .ok b ↔ ∃ a, x = .ok a ∧ f a = .ok b := by
  rcases x with e | a
  · simp [bind, Except.bind]
  · simp [bind, Except.bind]

theorem map_eq_ok {x : Except ε α} {f : α → β} {b : β} : x.map f = .ok b ↔ ∃ a, x = .ok a ∧ f a = b := by
  rcases x with e | a
  · simp [Except.map]
  · simp [Except.map]

theorem mapM_eq_ok {f : α → Except ε β} {l : List α} {bs : List β} :
    l.mapM f = .ok bs ↔ Forall₂ (fun a b => f a = .ok b) l bs := by
  induction l generalizing bs with
  | nil => simp [pure, Except.pure, eq_comm]
  | cons a l ih =>
    rw [List.mapM_cons, bind_eq_ok, List.forall₂_cons_left_iff]
    simp only [bind_eq_ok, ih]
    constructor
    · rintro ⟨b, hb, bs', hbs, h⟩
      exact ⟨b, bs', hb, hbs, (Except.ok.inj h).symm⟩
    · rintro ⟨b, bs', hb, hbs, rfl⟩
      exact ⟨b, hb, bs', hbs, rfl⟩

theorem exists_of_mapM_ok {f : α → Except ε β} {l : List α} {bs : List β} (h : l.mapM f = .ok bs) :
    ∀ b ∈ bs, ∃ a ∈ l, f a = .ok b := by
  rw [mapM_eq_ok] at h
  induction h with
  | nil => simp
  | @cons a b l bs hab _ ih =>
    rw [List.forall_mem_cons]
    refine ⟨⟨a, List.mem_cons_self, hab⟩, fun b' hb' => ?_⟩
    obtain ⟨a', ha', hf⟩ := ih b' hb'
    exact ⟨a', List.mem_cons_of_mem _ ha', hf⟩

theorem forM_eq_ok {f : α → Except ε Unit} {l : List α} {u : Unit} :
    l.forM f = .ok u ↔ ∀ a ∈ l, f a = .ok u := by
  induction l with
  | nil => simp [pure, Except.pure]
  | cons a l ih =>
    show (f a >>= fun _ => l.forM f) = .ok u ↔ _
    rw [bind_eq_ok, List.forall_mem_cons, ← ih]
    exact ⟨fun ⟨_, ha, hl⟩ => ⟨ha, hl⟩, fun ⟨ha, hl⟩ => ⟨u, ha, hl⟩⟩

/-! ## Errors -/

/-- If it fails, then with an error of the kind. -/
def FailsOnly (P : ε → Prop) (x : Except ε α) : Prop := ∀ e, x = .error e → P e

section

variable {P : ε → Prop}

theorem failsOnly_ok (a : α) : FailsOnly P (.ok a : Except ε α) := by
  intro e h
  cases h

theorem FailsOnly.bind {x : Except ε α} {f : α → Except ε β} (hx : FailsOnly P x)
    (hf : ∀ a, x = .ok a → FailsOnly P (f a)) : FailsOnly P (x >>= f) := by
  intro e h
  rcases x with e' | a
  · exact hx e (congrArg Except.error (Except.error.inj h))
  · exact hf a rfl e h

theorem failsOnly_mapM {f : α → Except ε β} {l : List α} (hf : ∀ a ∈ l, FailsOnly P (f a)) :
    FailsOnly P (l.mapM f) := by
  induction l with
  | nil => exact failsOnly_ok []
  | cons a l ih =>
    rw [List.mapM_cons]
    refine (hf a (List.mem_cons_self ..)).bind fun b _ => ?_
    exact (ih fun a' ha' => hf a' (List.mem_cons_of_mem _ ha')).bind fun bs _ => failsOnly_ok (b :: bs)

end

end Lib
